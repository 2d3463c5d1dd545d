import DocClient.Failure
import DocClient.Text.Word

/-!
Names of databases, collections and profiles: one or more word characters, so that a name can
stand in a statement and end nothing there.
-/
namespace DocClient

def isName (text : String) : Bool := !text.toList.isEmpty && text.toList.all Text.isWord

structure Name where
  text : String
  valid : isName text = true
  deriving DecidableEq

namespace Name

def check (text : String) : Except Failure Name :=
  if h : isName text = true then .ok ⟨text, h⟩ else .error (.invalidName text)

theorem check_text (n : Name) : check n.text = .ok n := by
  simp [check, n.valid]

theorem check_eq_ok_iff {text : String} {n : Name} : check text = .ok n ↔ n.text = text := by
  constructor
  · intro h
    unfold check at h
    split at h
    · simp only [Except.ok.injEq] at h
      rw [← h]
    · simp at h
  · rintro rfl
    exact check_text n

end Name

end DocClient
