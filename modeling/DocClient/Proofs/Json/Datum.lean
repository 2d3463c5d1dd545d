import DocClient.Proofs.Command
import DocClient.Proofs.Json.Parts
import Mathlib.Data.List.Forall2

/-!
The JSON value of a caller's value is ordered, if the JSON values that it holds are: members enter
an object in their places.
-/
namespace DocClient

variable {v : Json} {key : String} {doc : Document} {d : Datum} {ds : List Datum}

theorem Json.mem_setMember {m : String × Json} (h : m ∈ setMember key v doc) :
    m = (key, v) ∨ m ∈ doc := by
  induction doc with
  | nil => exact Or.inl (List.mem_singleton.mp h)
  | cons m' doc ih =>
    unfold setMember at h
    split at h
    · exact List.mem_cons.mp h
    · split at h
      · exact (List.mem_cons.mp h).imp id (List.mem_cons_of_mem m')
      · rcases List.mem_cons.mp h with rfl | h
        · exact Or.inr List.mem_cons_self
        · exact (ih h).imp id (List.mem_cons_of_mem m')

theorem Document.Ascending.setMember (h : Ascending doc) :
    Ascending (Json.setMember key v doc) := by
  induction doc with
  | nil => exact List.pairwise_singleton _ _
  | cons m doc ih =>
    obtain ⟨hm, hdoc⟩ := List.pairwise_cons.mp h
    unfold Json.setMember
    split
    · next hlt =>
      refine List.pairwise_cons.mpr ⟨?_, h⟩
      intro m' hm'
      rcases List.mem_cons.mp hm' with rfl | hm'
      · exact hlt
      · exact String.lt_trans hlt (hm m' hm')
    · next hge =>
      split
      · next heq =>
        subst heq
        exact List.pairwise_cons.mpr ⟨hm, hdoc⟩
      · next hne =>
        refine List.pairwise_cons.mpr ⟨?_, ih hdoc⟩
        intro m' hm'
        rcases Json.mem_setMember hm' with rfl | hm'
        · have hle : m.1 ≤ key := String.not_lt.mp hge
          exact Decidable.byContradiction fun hlt =>
            hne (String.le_antisymm (String.not_lt.mp hlt) hle)
        · exact hm m' hm'

theorem Json.ordered_empty : (object []).Ordered := ordered_object List.Pairwise.nil nofun

theorem Json.Ordered.setMember (hdoc : (object doc).Ordered) (hv : v.Ordered) :
    (object (Json.setMember key v doc)).Ordered := by
  refine ordered_object hdoc.ascending.setMember ?_
  intro m hm
  rcases mem_setMember hm with rfl | hm
  · exact hv
  · exact hdoc.member hm

namespace Datum

/-- The JSON values that a value holds as they are. -/
inductive Holds (v : Json) : Datum → Prop
  | json : Holds v (.json v)
  | present {d : Datum} (h : Holds v d) : Holds v (.present d)
  | wrapper {d : Datum} (h : Holds v d) : Holds v (.wrapper d)
  | item {d : Datum} {ds : List Datum} (hm : d ∈ ds) (h : Holds v d) : Holds v (.list ds)
  | entry {k d : Datum} {entries : List (Datum × Datum)} (hm : (k, d) ∈ entries) (h : Holds v d) :
      Holds v (.map entries)
  | field {name : String} {d : Datum} {fields : List (String × Datum)} (hm : (name, d) ∈ fields)
      (h : Holds v d) : Holds v (.record fields)
  | tagged {name : String} {d : Datum} (h : Holds v d) : Holds v (.tagged name d)

/-- The JSON values in it are ordered, as all JSON values that are built member by member. -/
def Ordered (d : Datum) : Prop := ∀ v, Holds v d → v.Ordered

theorem ordered_json (hv : v.Ordered) : (json v).Ordered := by
  intro w hw
  cases hw with
  | json => exact hv

theorem ofInt_ordered {n : Int} (h : ofInt n = .ok v) : v.Ordered := by
  unfold ofInt at h
  split at h
  · obtain rfl := Except.ok.inj h
    nofun
  · exact absurd h nofun

theorem ofExtended_ordered (x : Extended) : (Json.ofExtended x).Ordered := by
  cases x <;> nofun

theorem bytes_ordered (bs : Text.Bytes) : (Json.array (bs.map ofByte)).Ordered := by
  apply Json.ordered_array
  intro v hv
  obtain ⟨b, -, rfl⟩ := List.mem_map.mp hv
  nofun

mutual

theorem toJson_ordered {v : Json} (d : Datum) (hd : d.Ordered) (h : d.toJson = .ok v) :
    v.Ordered := by
  cases d with
  | json w =>
    obtain rfl := Except.ok.inj h
    exact hd _ .json
  | unit | bool | char | text | constant =>
    obtain rfl := Except.ok.inj h
    nofun
  | int n => exact ofInt_ordered h
  | real f x => exact Except.ok.inj h ▸ ofExtended_ordered _
  | bytes bs => exact Except.ok.inj h ▸ bytes_ordered bs
  | present d => exact toJson_ordered d (fun v hv => hd v (.present hv)) h
  | wrapper d => exact toJson_ordered d (fun v hv => hd v (.wrapper hv)) h
  | list ds =>
    obtain ⟨vs, hvs, rfl⟩ := map_ok h
    exact Json.ordered_array (itemsToJson_ordered ds (fun d hm v hv => hd v (.item hm hv)) hvs)
  | map entries =>
    obtain ⟨doc, hdoc, rfl⟩ := map_ok h
    exact entriesToJson_ordered entries (fun e hm v hv => hd v (.entry hm hv))
      Json.ordered_empty hdoc
  | record fields =>
    obtain ⟨doc, hdoc, rfl⟩ := map_ok h
    exact fieldsToJson_ordered fields (fun e hm v hv => hd v (.field hm hv))
      Json.ordered_empty hdoc
  | tagged name d =>
    obtain ⟨w, hw, rfl⟩ := map_ok h
    have hwo := toJson_ordered d (fun v hv => hd v (.tagged hv)) hw
    refine Json.ordered_object (List.pairwise_singleton _ _) ?_
    intro m hm
    obtain rfl := List.mem_singleton.mp hm
    exact hwo
  | refusal message => exact absurd h nofun

theorem itemsToJson_ordered {vs : List Json} (ds : List Datum) (hd : ∀ d ∈ ds, d.Ordered)
    (h : itemsToJson ds = .ok vs) : ∀ v ∈ vs, v.Ordered := by
  cases ds with
  | nil =>
    obtain rfl := Except.ok.inj h
    nofun
  | cons d ds =>
    obtain ⟨w, hw, h⟩ := bind_ok h
    obtain ⟨ws, hws, h⟩ := bind_ok h
    obtain rfl := Except.ok.inj h
    have hwo := toJson_ordered d (hd d List.mem_cons_self) hw
    have hwso := itemsToJson_ordered ds (fun d' hm => hd d' (List.mem_cons_of_mem d hm)) hws
    intro v hv
    rcases List.mem_cons.mp hv with rfl | hv
    · exact hwo
    · exact hwso v hv

theorem entriesToJson_ordered {doc doc' : Document} (entries : List (Datum × Datum))
    (hd : ∀ e ∈ entries, e.2.Ordered) (hdoc : (Json.object doc).Ordered)
    (h : entriesToJson doc entries = .ok doc') : (Json.object doc').Ordered := by
  cases entries with
  | nil => exact Except.ok.inj h ▸ hdoc
  | cons e entries =>
    obtain ⟨name, -, h⟩ := bind_ok h
    obtain ⟨v, hv, h⟩ := bind_ok h
    have hvo := toJson_ordered e.2 (hd e List.mem_cons_self) hv
    exact entriesToJson_ordered entries (fun e' hm => hd e' (List.mem_cons_of_mem e hm))
      (hdoc.setMember hvo) h

theorem fieldsToJson_ordered {doc doc' : Document} (fields : List (String × Datum))
    (hd : ∀ e ∈ fields, e.2.Ordered) (hdoc : (Json.object doc).Ordered)
    (h : fieldsToJson doc fields = .ok doc') : (Json.object doc').Ordered := by
  cases fields with
  | nil => exact Except.ok.inj h ▸ hdoc
  | cons e fields =>
    obtain ⟨v, hv, h⟩ := bind_ok h
    have hvo := toJson_ordered e.2 (hd e List.mem_cons_self) hv
    exact fieldsToJson_ordered fields (fun e' hm => hd e' (List.mem_cons_of_mem e hm))
      (hdoc.setMember hvo) h

end

theorem toJson_of_document (h : d.document = .ok doc) : d.toJson = .ok (.object doc) := by
  unfold document at h
  split at h
  · exact absurd h nofun
  · next heq => exact Except.ok.inj h ▸ heq
  · exact absurd h nofun

/-- A document made of ordered values is ordered. -/
theorem document_ordered (hd : d.Ordered) (h : d.document = .ok doc) :
    (Json.object doc).Ordered :=
  toJson_ordered d hd (toJson_of_document h)

end Datum

/-- The documents of a list are those of its items, one for each and in their order. -/
theorem documentsOf_eq_ok_iff {docs : List Document} :
    documentsOf ds = .ok docs ↔ List.Forall₂ (fun d doc => d.document = .ok doc) ds docs := by
  induction ds generalizing docs with
  | nil =>
    rw [List.forall₂_nil_left_iff]
    exact ⟨fun h => (Except.ok.inj h).symm, fun h => h ▸ rfl⟩
  | cons d ds ih =>
    constructor
    · intro h
      obtain ⟨doc, hdoc, h⟩ := bind_ok h
      obtain ⟨docs, hdocs, h⟩ := bind_ok h
      obtain rfl := Except.ok.inj h
      exact .cons hdoc (ih.mp hdocs)
    · rintro (_ | ⟨hdoc, hdocs⟩)
      rw [documentsOf, hdoc, ih.mpr hdocs]
      rfl

theorem exists_of_mem_documents {R : Datum → Document → Prop} {docs : List Document}
    (h : List.Forall₂ R ds docs) (hdoc : doc ∈ docs) : ∃ d ∈ ds, R d doc := by
  induction h with
  | nil => exact absurd hdoc List.not_mem_nil
  | @cons d doc' ds docs hd _ ih =>
    rcases List.mem_cons.mp hdoc with rfl | hdoc
    · exact ⟨d, List.mem_cons_self, hd⟩
    · obtain ⟨d', hm, hd'⟩ := ih hdoc
      exact ⟨d', List.mem_cons_of_mem d hm, hd'⟩

end DocClient
