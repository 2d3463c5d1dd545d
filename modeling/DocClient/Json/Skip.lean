import DocClient.Json.Reader

/-!
Passing over a value that nobody wants. Only its outline is checked: brackets may nest to any
depth, numbers may be of any size and escapes may name half a surrogate pair.
-/
namespace DocClient.Json

/-- What is open around the place reached. -/
inductive Bracket where
  | list
  | object
  deriving DecidableEq, Repr

namespace Bracket

def closer : Bracket → Char
  | list => ']'
  | object => '\x7d'

def unfinished : Bracket → Reason
  | list => .endInList
  | object => .endInObject

def wantedComma : Bracket → Reason
  | list => .wantedCommaInList
  | object => .wantedCommaInObject

end Bracket

section Leaves

def skipExponent (cs : List Char) : Except Stop (List Char) :=
  match (exponentSign cs).2 with
  | [] => .error (stop .badNumber 0 [])
  | c :: rest =>
    if c.isDigit then .ok (rest.dropWhile Char.isDigit) else .error (stop .badNumber 1 (c :: rest))

def skipFraction (cs : List Char) : Except Stop (List Char) :=
  if (cs.takeWhile Char.isDigit).isEmpty then .error (stop .badNumber 1 cs)
  else
    match cs.dropWhile Char.isDigit with
    | [] => .ok []
    | c :: rest => if isExponentLetter c then skipExponent rest else .ok (c :: rest)

/-- Passes over a number without its sign. -/
def skipNumber (cs : List Char) : Except Stop (List Char) :=
  match wholeDigits cs with
  | .error s => .error ⟨.badNumber, s.unread⟩
  | .ok (_, []) => .ok []
  | .ok (_, c :: rest) =>
    if c = '.' then skipFraction rest
    else if isExponentLetter c then skipExponent rest
    else .ok (c :: rest)

/-- Passes over an escape after its backslash. -/
def skipEscape (cs : List Char) : Except Stop (List Char) :=
  match cs with
  | 'u' :: rest => (·.2) <$> fourHex rest
  | cs => (·.2) <$> escape cs

theorem skipEscape_shorter {cs rest : List Char} (h : skipEscape cs = .ok rest) :
    rest.length < cs.length := by
  unfold skipEscape at h
  split at h
  · next r =>
    cases hx : fourHex r with
    | error e => simp [hx, Functor.map, Except.map] at h
    | ok p =>
      obtain ⟨n, after⟩ := p
      have := fourHex_shorter hx
      simp only [hx, Functor.map, Except.map, Except.ok.injEq] at h
      simp [← h]
      omega
  · cases hx : escape cs with
    | error e => simp [hx, Functor.map, Except.map] at h
    | ok p =>
      obtain ⟨c, after⟩ := p
      have := escape_shorter hx
      simp only [hx, Functor.map, Except.map, Except.ok.injEq] at h
      rwa [← h]

/-- Passes over the rest of a string after its opening quote. -/
def skipString (cs : List Char) : Except Stop (List Char) :=
  match cs with
  | [] => .error (stop .endInString 0 [])
  | '"' :: cs => .ok cs
  | '\\' :: cs =>
    match h : skipEscape cs with
    | .error e => .error e
    | .ok rest =>
      have := skipEscape_shorter h
      skipString rest
  | c :: cs =>
    if c.toNat < 0x20 then .error (stop .controlCharacter 0 (c :: cs)) else skipString cs
  termination_by cs.length
  decreasing_by all_goals simp_wf <;> omega

/-- Passes over a key and its colon, up to the value. -/
def skipKey (cs : List Char) : Except Stop (List Char) :=
  match skipGaps cs with
  | [] => .error (stop .endInObject 0 [])
  | '"' :: rest => do colon (← skipString rest)
  | rest => .error (stop .keyNotString 1 rest)

/-- Passes over a value that is no bracket; `none` at an opening bracket. -/
def skipLeaf : List Char → Except Stop (Option (List Char))
  | [] => .error (stop .endInValue 0 [])
  | c :: cs =>
    match c with
    | 'n' => some <$> word ['u', 'l', 'l'] cs
    | 't' => some <$> word ['r', 'u', 'e'] cs
    | 'f' => some <$> word ['a', 'l', 's', 'e'] cs
    | '"' => some <$> skipString cs
    | '-' => some <$> skipNumber cs
    | '[' => .ok none
    | '\x7b' => .ok none
    | c =>
      if c.isDigit then some <$> skipNumber (c :: cs) else .error (stop .wantedValue 1 (c :: cs))

end Leaves

/-- Where the reader stands: before a value, or inside brackets before or after one. -/
inductive Stage where
  | value
  | first
  | after
  deriving DecidableEq, Repr

/-- Passes over the rest of a value inside `opened`, the innermost bracket first. Two steps take a
character at least, which bounds their number. -/
def skipRest : Nat → Stage → List Bracket → List Char → Except Stop (List Char)
  | 0, _, _, cs => .error (stop .endInValue 0 cs)
  | room + 1, .value, opened, cs => do
    let cs := skipGaps cs
    match ← skipLeaf cs with
    | some rest => skipRest room .after opened rest
    | none =>
      let bracket := if cs.head? = some '[' then Bracket.list else Bracket.object
      skipRest room .first (bracket :: opened) cs.tail
  | _ + 1, _, [], cs => .ok cs
  | room + 1, stage, bracket :: opened, cs =>
    match skipGaps cs with
    | [] => .error (stop bracket.unfinished 0 [])
    | c :: rest =>
      if c = bracket.closer then skipRest room .after opened rest
      else if stage = .first ∨ c = ',' then do
        let next := if stage = .first then c :: rest else rest
        let next ← if bracket = .object then skipKey next else .ok next
        skipRest room .value (bracket :: opened) next
      else .error (stop bracket.wantedComma 1 (c :: rest))

def skipValue (cs : List Char) : Except Stop (List Char) :=
  skipRest (2 * cs.length + 2) .value [] cs

end DocClient.Json
