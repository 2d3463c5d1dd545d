import DocClient.Proofs.Statement.Delivery
import DocClient.Proofs.Wire.Acceptance

/-!
Replies are read back from the lines that are written for them, and so are the lines of a result,
whatever characters they are made of.
-/
namespace DocClient.Reply

open Json (Lists last)

variable {r : Reply} {line : String} {ms : List (String × Json)} {v : Json}

/-- The members that are written for a reply. -/
def members (r : Reply) : List (String × Json) :=
  ("Status", .string r.status) :: (r.message.toList.map fun m => ("Message", .string m))
    ++ r.result.toList.map fun v => ("Result", v)

/-- The members that are written for a reply tell of it, unless its result is one that is taken
for none. -/
theorem tells_members (h : r.result ≠ some .null) : Tells r.members r := by
  obtain ⟨status, message, result⟩ := r
  refine ⟨?_, ?_, ?_⟩
  · cases message <;> cases result <;> rfl
  · cases message with
    | none => exact Or.inl ⟨Or.inl (by cases result <;> rfl), rfl⟩
    | some m => exact Or.inr ⟨m, by cases result <;> rfl, rfl⟩
  · cases result with
    | none => exact Or.inl ⟨Or.inl (by cases message <;> rfl), rfl⟩
    | some v =>
      have hv : v ≠ .null := by
        rintro rfl
        exact h rfl
      exact Or.inr ⟨v, hv, by cases message <;> rfl, rfl⟩

theorem printable_string (s : String) : (Json.string s).Printable :=
  ⟨by simp [Json.Ordered], by simp [Json.Numbers], Nat.zero_le _⟩

/-- A reply whose result can be printed and read is read back from its line. -/
theorem parse_line (h : ∀ v ∈ r.result, v.Printable) (hnull : r.result ≠ some .null) :
    parse r.line = .ok r := by
  have hall : ∀ m ∈ r.members, m.2.Printable := by
    intro m hm
    simp only [members, List.mem_append, List.mem_cons, List.mem_map, Option.mem_toList] at hm
    rcases hm with (rfl | ⟨message, -, rfl⟩) | ⟨v, hv, rfl⟩
    · exact printable_string _
    · exact printable_string _
    · exact h v hv
  exact parse_lists_iff.mpr ⟨r.members, lists_render hall, tells_members hnull⟩

/-- The result of a reply that is read is the value of a member of its line. -/
theorem mem_of_tells (h : Tells ms r) (hv : v ∈ r.result) : v ≠ .null ∧ ∃ m ∈ ms, m.2 = v := by
  obtain ⟨-, hnone⟩ | ⟨w, hne, hstated, hw⟩ := h.result
  · simp [hnone] at hv
  · obtain rfl : w = v := by simpa [hw] using hv
    have hmem : w ∈ stated .result ms := by simp [hstated]
    obtain ⟨key, -, hlast⟩ := List.mem_filterMap.mp hmem
    have hpair : (key, w) ∈ ms := List.mem_reverse.mp (Json.mem_of_lookup hlast)
    exact ⟨hne, (key, w), hpair, rfl⟩

/-- A value that stands in an object can be printed as it is, if its numbers can. -/
theorem printable_of_lists {cs : List Char} {m : String × Json} (h : Lists cs ms) (hm : m ∈ ms)
    (hl : m.2.RealsLegible) : m.2.Printable := by
  obtain ⟨-, ⟨h⟩, -⟩ := h
  obtain ⟨_, -, -, -, hdenotes⟩ := h.mem hm
  obtain ⟨hordered, hnesting⟩ := Json.Denotes.ordered hdenotes
  exact ⟨hordered, hl.numbers, hnesting⟩

theorem printable_strings (lines : List String) : (Json.array (lines.map .string)).Printable where
  ordered := Json.ordered_array fun v hv => by
    obtain ⟨s, -, rfl⟩ := List.mem_map.mp hv
    exact (printable_string s).ordered
  legible := Json.numbers_array fun v hv => by
    obtain ⟨s, -, rfl⟩ := List.mem_map.mp hv
    exact (printable_string s).legible
  nesting := by
    have hitems : Json.itemsNesting (lines.map .string) ≤ 0 := Json.itemsNesting_le fun v hv => by
      obtain ⟨s, -, rfl⟩ := List.mem_map.mp hv
      exact Nat.le_refl 0
    have hmax : 1 ≤ Json.maxDepth - 1 := by decide
    simp only [Json.nesting]
    omega

/-- A reply that has been read is read back from its own line as it was, if the numbers in it that
are not whole are; and so is any reply with a list of texts, each of which is shown as it is. -/
theorem round_trip :
    (∀ line r, parse line = .ok r → (∀ v ∈ r.result, v.RealsLegible) → parse r.line = .ok r) ∧
      ∀ (status : String) (message : Option String) (lines : List String), ∃ r,
        parse (Reply.line ⟨status, message, some (.array (lines.map .string))⟩) = .ok r ∧
          r.status = status ∧ r.note = message.filter (· ≠ "") ∧ r.lines = lines := by
  refine ⟨?_, ?_⟩
  · intro line r h hreals
    obtain ⟨ms, hlists, htells⟩ := parse_lists_iff.mp h
    refine parse_line (fun v hv => ?_) fun hnull => ?_
    · obtain ⟨-, m, hm, rfl⟩ := mem_of_tells htells hv
      exact printable_of_lists hlists hm (hreals m.2 hv)
    · exact (mem_of_tells htells hnull).1 rfl
  · intro status message lines
    refine ⟨_, parse_line ?_ (by simp), rfl, ?_, ?_⟩
    · intro v hv
      obtain rfl := Option.some.inj hv
      exact printable_strings lines
    · cases message <;> simp [note, Option.filter]
    · simp only [Reply.lines, value, List.map_map]
      exact List.map_id'' (fun _ => rfl) lines

/-- A result with a number that is not whole and a text that looks like JSON. -/
def halves : Json := .array [.number (.real ⟨false, 4503599627370496, -53⟩), .string "[1]"]

theorem halves_legible : halves.RealsLegible := by
  intro x hx
  simp [halves] at hx
  exact hx ▸ legible_half

/-- Members of a reply in another order and with other keys than those with which it is written. -/
def reordered : List (String × Json) :=
  [("result", halves), ("message", .null), ("status", .string "ok")]

theorem round_trip_reordered :
    (∃ r : Reply, parse (Json.object reordered).render = .ok r ∧ r.result = some halves ∧
      parse r.line = .ok r) ∧
    ∃ r, parse (Reply.line ⟨"ok", some "", some (.array (["[1]", "\n"].map .string))⟩) = .ok r ∧
      r.note = none ∧ r.lines = ["[1]", "\n"] := by
  have hall : ∀ m ∈ reordered, m.2.Printable := by
    intro m hm
    simp only [reordered, List.mem_cons, List.not_mem_nil, or_false] at hm
    rcases hm with rfl | rfl | rfl
    · exact ⟨by simp [halves, Json.Ordered], halves_legible.numbers, by decide⟩
    · exact ⟨by simp [Json.Ordered], by simp [Json.Numbers], by decide⟩
    · exact printable_string "ok"
  have hparse : parse (Json.object reordered).render = .ok ⟨"ok", none, some halves⟩ :=
    parse_lists_iff.mpr ⟨reordered, lists_render hall, rfl, Or.inl ⟨Or.inr rfl, rfl⟩,
      Or.inr ⟨halves, by simp [halves], rfl, rfl⟩⟩
  obtain ⟨hread, hlines⟩ := round_trip
  refine ⟨⟨_, hparse, rfl, hread _ _ hparse fun v hv => ?_⟩, ?_⟩
  · obtain rfl := Option.some.inj hv
    exact halves_legible
  · obtain ⟨r, hr, -, hnote, hlist⟩ := hlines "ok" (some "") ["[1]", "\n"]
    exact ⟨r, hr, hnote, hlist⟩

end DocClient.Reply
