import DocClient.Proofs.Json.Acceptance
import DocClient.Proofs.Json.Datum
import Mathlib.Data.List.Induction

/-!
The values that texts denote and the texts that are printed for values. A value that is read has
the members of its objects in order and nests no deeper than the reader allows; what is printed
for such a value denotes it, and an object that is printed in any order of its members lists them.
-/
namespace DocClient.Json

variable {α : Type} {cs : List Char} {v : Json} {vs : List Json} {doc : Document}
  {ms : List (String × Json)} {as : List α} {depth : Nat} {text : List Char → α → Prop}
  {spelled : List Char → Json → Prop}

section Depth

theorem Contents.mem {a : α} (h : Contents text cs as) (ha : a ∈ as) : ∃ body, text body a := by
  cases h with
  | empty => simp at ha
  | series h =>
    induction h with
    | one h =>
      obtain ⟨_, h, _⟩ := h
      exact List.mem_singleton.mp ha ▸ ⟨_, h⟩
    | cons h _ ih =>
      rcases List.mem_cons.mp ha with rfl | ha
      · obtain ⟨_, h, _⟩ := h
        exact ⟨_, h⟩
      · exact ih ha

theorem gather_append (ms : List (String × Json)) (m : String × Json) :
    gather (ms ++ [m]) = setMember m.1 m.2 (gather ms) := by
  simp [gather]

theorem ascending_gather (ms : List (String × Json)) : Document.Ascending (gather ms) := by
  induction ms using List.reverseRecOn with
  | nil => exact List.Pairwise.nil
  | append_singleton ms m ih =>
    rw [gather_append]
    exact ih.setMember

theorem mem_gather {m : String × Json} (h : m ∈ gather ms) : m ∈ ms := by
  induction ms using List.reverseRecOn with
  | nil => simp [gather] at h
  | append_singleton ms m' ih =>
    rw [gather_append] at h
    rcases mem_setMember h with rfl | h
    · simp
    · exact List.mem_append_left _ (ih h)

theorem itemsNesting_le (h : ∀ v ∈ vs, v.nesting ≤ depth) : itemsNesting vs ≤ depth := by
  induction vs with
  | nil => exact Nat.zero_le _
  | cons v vs ih =>
    exact Nat.max_le.mpr ⟨h v List.mem_cons_self, ih fun w hw => h w (List.mem_cons_of_mem v hw)⟩

theorem membersNesting_le (h : ∀ m ∈ doc, m.2.nesting ≤ depth) : membersNesting doc ≤ depth := by
  induction doc with
  | nil => exact Nat.zero_le _
  | cons m doc ih =>
    exact Nat.max_le.mpr ⟨h m List.mem_cons_self, ih fun w hw => h w (List.mem_cons_of_mem m hw)⟩

theorem plain_ordered (h : Plain cs v) : v.Ordered ∧ v.nesting ≤ depth := by
  cases h <;> exact ⟨by simp [Ordered], by simp [nesting]⟩

/-- A value that a text denotes has its members in order, and nests no deeper than is allowed. -/
theorem Denotes.ordered (h : Denotes depth cs v) : v.Ordered ∧ v.nesting ≤ depth := by
  induction depth generalizing cs v with
  | zero => exact plain_ordered h
  | succ depth ih =>
    cases h with
    | plain h => exact plain_ordered h
    | @array _ vs h =>
      have hitem : ∀ v ∈ vs, v.Ordered ∧ v.nesting ≤ depth := by
        intro v hv
        obtain ⟨body, hbody⟩ := h.mem hv
        exact ih hbody
      exact ⟨ordered_array fun v hv => (hitem v hv).1,
        Nat.succ_le_succ (itemsNesting_le fun v hv => (hitem v hv).2)⟩
    | @object _ ms h =>
      obtain ⟨h⟩ := h
      have hmember : ∀ m ∈ gather ms, m.2.Ordered ∧ m.2.nesting ≤ depth := by
        intro m hm
        obtain ⟨_, _, _, _, hv⟩ := h.mem (mem_gather hm)
        exact ih hv
      exact ⟨ordered_object (ascending_gather _) fun m hm => (hmember m hm).1,
        Nat.succ_le_succ (membersNesting_le fun m hm => (hmember m hm).2)⟩

end Depth

section Printed

theorem spells_escaped (s : String) : Spells (s.toList.flatMap escapeChar) s.toList := by
  obtain ⟨body, chars, h, hbody, hs⟩ := stringRest_eq_ok_iff.mp (stringRest_chars s [])
  have hchars : s.toList = chars := by simp [hs]
  rwa [List.append_cancel_right hbody, hchars]

/-- What is printed for a value denotes it. -/
theorem denotes_chars (ho : v.Ordered) (hl : v.Numbers Number.Legible) (hn : v.nesting ≤ depth) :
    Denotes depth v.chars v := by
  obtain ⟨front, body, hf, hv, hcs⟩ :=
    (reads_value depth).sound (inverts_value ho hl hn [] endsNumber_nil)
  obtain ⟨c, tail, hc, hgap, -⟩ : Starts (v.chars ++ []) := starts_chars hl
  cases front with
  | nil =>
    simp only [List.append_nil, List.nil_append] at hcs
    exact hcs ▸ hv
  | cons d front =>
    rw [hc] at hcs
    obtain ⟨rfl, -⟩ := List.cons.inj hcs
    simp [hf c List.mem_cons_self] at hgap

/-- A printed member, whatever is around the printed object. -/
theorem memberText_chars {key : String} (h : spelled v.chars v) :
    MemberText spelled (stringChars key ++ ':' :: v.chars) (key, v) := by
  have hmember : MemberText spelled _ _ := .mk (spells_escaped key) gaps_nil gaps_nil h
  simpa [stringChars] using hmember

theorem amid_self {a : α} (h : text cs a) : Amid text cs a := by
  simpa using Amid.mk gaps_nil h gaps_nil

theorem series_membersChars (h : ∀ m ∈ ms, spelled m.2.chars m.2) (hne : ms ≠ []) :
    Series (MemberText spelled) (membersChars ms) ms := by
  induction ms with
  | nil => exact absurd rfl hne
  | cons m ms ih =>
    obtain ⟨key, v⟩ := m
    have hmember : MemberText spelled _ (key, v) := memberText_chars (h (key, v) List.mem_cons_self)
    have hm := amid_self hmember
    cases ms with
    | nil => exact .one hm
    | cons m' ms =>
      have hrest := ih (fun m hm => h m (List.mem_cons_of_mem _ hm)) (by simp)
      have hseries := Series.cons hm hrest
      simpa [membersChars] using hseries

/-- A value that is printed and read again as it is, inside an object. -/
structure Printable (v : Json) : Prop where
  ordered : v.Ordered
  legible : v.Numbers Number.Legible
  nesting : v.nesting ≤ maxDepth - 1

/-- An object that is printed member by member has these members, in any order. -/
theorem lists_chars (h : ∀ m ∈ ms, m.2.Printable) : Lists (object ms).chars ms := by
  have hdenotes : ∀ m ∈ ms, Denotes (maxDepth - 1) m.2.chars m.2 := fun m hm =>
    denotes_chars (h m hm).ordered (h m hm).legible (h m hm).nesting
  refine amid_self (.mk ?_)
  cases ms with
  | nil => exact .empty gaps_nil
  | cons m ms => exact .series (series_membersChars hdenotes (by simp))

end Printed

end DocClient.Json
