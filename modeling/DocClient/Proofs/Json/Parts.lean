import DocClient.Json.Basic

/-!
The parts of a JSON value, how deep it nests, and the order of the members of its objects.
-/
namespace DocClient

/-- Members in ascending order of their keys, one member a key. -/
def Document.Ascending (doc : Document) : Prop := doc.Pairwise fun m m' => m.1 < m'.1

theorem Document.Ascending.keys {doc : Document} (h : Ascending doc) :
    (doc.map Prod.fst).Pairwise (· < ·) :=
  List.pairwise_map.mpr h

/-- Members in order have their keys in one order only. -/
theorem Document.Ascending.keys_eq {doc doc' : Document} (h : Ascending doc)
    (h' : Ascending doc')
    (hkeys : ∀ key, key ∈ doc.map Prod.fst ↔ key ∈ doc'.map Prod.fst) :
    doc.map Prod.fst = doc'.map Prod.fst := by
  have hne {k k' : String} (hlt : k < k') : k ≠ k' := by
    rintro rfl
    exact String.lt_irrefl k hlt
  have hperm := (List.perm_ext_iff_of_nodup (h.keys.imp hne) (h'.keys.imp hne)).mpr hkeys
  exact hperm.eq_of_pairwise (fun _ _ _ _ hlt hgt => absurd hgt (String.lt_asymm hlt)) h.keys
    h'.keys

namespace Json

variable {u v w : Json} {key : String} {items : List Json} {doc : Document}

/-- What holds of a value if it holds of its items and of the values of its members holds of every
value. -/
@[elab_as_elim, induction_eliminator]
theorem nestedInduction {motive : Json → Prop} (null : motive .null)
    (bool : ∀ b, motive (.bool b)) (number : ∀ n, motive (.number n))
    (string : ∀ s, motive (.string s))
    (array : ∀ items, (∀ v ∈ items, motive v) → motive (.array items))
    (object : ∀ doc : Document, (∀ m ∈ doc, motive m.2) → motive (.object doc)) :
    ∀ v, motive v
  | .null => null
  | .bool b => bool b
  | .number n => number n
  | .string s => string s
  | .array items => array items fun v _ =>
      nestedInduction null bool number string array object v
  | .object doc => object doc fun m _ =>
      nestedInduction null bool number string array object m.2
termination_by v => sizeOf v
decreasing_by
  · next hm =>
    have := List.sizeOf_lt_of_mem hm
    simp only [Json.array.sizeOf_spec]
    omega
  · next hm =>
    have hlt := List.sizeOf_lt_of_mem hm
    have hsnd : sizeOf m = 1 + sizeOf m.1 + sizeOf m.2 := by cases m; rfl
    simp only [Json.object.sizeOf_spec]
    omega

/-- A value itself, and what is found inside it at any depth. -/
inductive Part (v : Json) : Json → Prop
  | self : Part v v
  | item {w : Json} {items : List Json} (hm : w ∈ items) (h : Part v w) : Part v (.array items)
  | member {key : String} {w : Json} {doc : Document} (hm : (key, w) ∈ doc) (h : Part v w) :
      Part v (.object doc)

@[simp] theorem part_null : Part v .null ↔ v = .null := by
  constructor
  · rintro ⟨⟩
    rfl
  · rintro rfl
    exact .self

@[simp] theorem part_bool {b : Bool} : Part v (.bool b) ↔ v = .bool b := by
  constructor
  · rintro ⟨⟩
    rfl
  · rintro rfl
    exact .self

@[simp] theorem part_number {n : Number} : Part v (.number n) ↔ v = .number n := by
  constructor
  · rintro ⟨⟩
    rfl
  · rintro rfl
    exact .self

@[simp] theorem part_string {s : String} : Part v (.string s) ↔ v = .string s := by
  constructor
  · rintro ⟨⟩
    rfl
  · rintro rfl
    exact .self

@[simp] theorem part_array : Part v (.array items) ↔ v = .array items ∨ ∃ w ∈ items, Part v w := by
  constructor
  · rintro (_ | ⟨hm, h⟩)
    · exact Or.inl rfl
    · exact Or.inr ⟨_, hm, h⟩
  · rintro (rfl | ⟨w, hm, h⟩)
    · exact .self
    · exact .item hm h

@[simp] theorem part_object :
    Part v (.object doc) ↔ v = .object doc ∨ ∃ m ∈ doc, Part v m.2 := by
  constructor
  · rintro (_ | _ | ⟨hm, h⟩)
    · exact Or.inl rfl
    · exact Or.inr ⟨_, hm, h⟩
  · rintro (rfl | ⟨⟨key, w⟩, hm, h⟩)
    · exact .self
    · exact .member hm h

/-- The members of every object stand in ascending order of their keys. -/
def Ordered (v : Json) : Prop := ∀ doc, Part (.object doc) v → Document.Ascending doc

/-- All numbers in a value satisfy a condition. -/
def Numbers (P : Number → Prop) (v : Json) : Prop := ∀ n, Part (.number n) v → P n

/-- All numbers are whole numbers that fit a word. -/
def Whole (v : Json) : Prop := v.Numbers fun n => ∃ m fits, n = .whole m fits

theorem ordered_object (hdoc : Document.Ascending doc) (h : ∀ m ∈ doc, m.2.Ordered) :
    (object doc).Ordered := by
  intro doc' hp
  cases hp with
  | self => exact hdoc
  | member hm hp => exact h _ hm doc' hp

theorem ordered_array (h : ∀ v ∈ items, v.Ordered) : (array items).Ordered := by
  intro doc hp
  cases hp with
  | item hm hp => exact h _ hm doc hp

variable {P Q : Number → Prop}

theorem numbers_object (h : ∀ m ∈ doc, m.2.Numbers P) : (object doc).Numbers P := by
  intro n hp
  cases hp with
  | member hm hp => exact h _ hm n hp

theorem numbers_array (h : ∀ v ∈ items, v.Numbers P) : (array items).Numbers P := by
  intro n hp
  cases hp with
  | item hm hp => exact h _ hm n hp

theorem Ordered.ascending (h : (object doc).Ordered) : Document.Ascending doc := h doc .self

theorem Ordered.item (h : (array items).Ordered) (hm : v ∈ items) : v.Ordered :=
  fun doc hp => h doc (.item hm hp)

theorem Ordered.member {m : String × Json} (h : (object doc).Ordered) (hm : m ∈ doc) :
    m.2.Ordered :=
  fun doc' hp => h doc' (.member hm hp)

theorem Numbers.item (h : (array items).Numbers P) (hm : v ∈ items) : v.Numbers P :=
  fun n hp => h n (.item hm hp)

theorem Numbers.member {m : String × Json} (h : (object doc).Numbers P) (hm : m ∈ doc) :
    m.2.Numbers P :=
  fun n hp => h n (.member hm hp)

theorem Numbers.mono (h : v.Numbers P) (hpq : ∀ n, P n → Q n) : v.Numbers Q :=
  fun n hp => hpq n (h n hp)

mutual

/-- How many levels of arrays and objects a value has. -/
def nesting : Json → Nat
  | array items => itemsNesting items + 1
  | object members => membersNesting members + 1
  | null | bool _ | number _ | string _ => 0

def itemsNesting : List Json → Nat
  | [] => 0
  | v :: vs => max (nesting v) (itemsNesting vs)

def membersNesting : List (String × Json) → Nat
  | [] => 0
  | (_, v) :: ms => max (nesting v) (membersNesting ms)

end

theorem nesting_le_items (h : v ∈ items) : v.nesting ≤ itemsNesting items := by
  induction items with
  | nil => simp at h
  | cons w items ih =>
    rcases List.mem_cons.mp h with rfl | h
    · exact Nat.le_max_left _ _
    · exact Nat.le_trans (ih h) (Nat.le_max_right _ _)

theorem nesting_le_members {m : String × Json} (h : m ∈ doc) :
    m.2.nesting ≤ membersNesting doc := by
  induction doc with
  | nil => simp at h
  | cons m' doc ih =>
    rcases List.mem_cons.mp h with rfl | h
    · exact Nat.le_max_left _ _
    · exact Nat.le_trans (ih h) (Nat.le_max_right _ _)

/-- A member whose key comes after all others is put at the end. -/
theorem setMember_append (h : ∀ m ∈ doc, m.1 < key) :
    setMember key v doc = doc ++ [(key, v)] := by
  induction doc with
  | nil => rfl
  | cons m doc ih =>
    have hlt : m.1 < key := h m List.mem_cons_self
    have hne : ¬ key = m.1 := by
      rintro rfl
      exact String.lt_irrefl _ hlt
    have hrest : ∀ m' ∈ doc, m'.1 < key := fun m' hm => h m' (List.mem_cons_of_mem m hm)
    simp [setMember, String.lt_asymm hlt, hne, ih hrest]

end Json

/-- A value whose objects all have their members in order, as those of a value have that is read or
built member by member. -/
@[ext]
structure OrderedJson where
  json : Json
  ordered : json.Ordered

end DocClient
