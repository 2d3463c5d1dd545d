import DocClient.Command

/-! What can be wrong with the arguments of a command. -/
namespace DocClient

/-- Whether the failure is one of arguments, found before anything is sent. -/
def Failure.ofArguments : Failure → Bool
  | .invalidName _ | .invalidArgument _ | .serialization _ => true
  | _ => false

variable {f : Failure} {α β : Type}

theorem Name.check_error {text : String} (h : Name.check text = .error f) :
    f = .invalidName text := by
  unfold Name.check at h
  split at h
  · simp at h
  · exact (Except.error.inj h).symm

theorem Datum.document_error {d : Datum} (h : d.document = .error f) : f.ofArguments = true := by
  unfold document at h
  split at h
  · exact Except.error.inj h ▸ rfl
  · simp at h
  · exact Except.error.inj h ▸ rfl

section Success

variable {ε : Type} {x : Except ε α} {b : β}

theorem map_ok {g : α → β} (h : g <$> x = .ok b) : ∃ a, x = .ok a ∧ g a = b := by
  cases x with
  | ok a => exact ⟨a, rfl, Except.ok.inj h⟩
  | error e => exact absurd h nofun

theorem bind_ok {g : α → Except ε β} (h : (x >>= g) = .ok b) : ∃ a, x = .ok a ∧ g a = .ok b := by
  cases x with
  | ok a => exact ⟨a, rfl, h⟩
  | error e => exact absurd h nofun

end Success

theorem map_error {x : Except Failure α} {g : α → β} (h : g <$> x = .error f) : x = .error f := by
  cases x with
  | ok a => simp [Functor.map, Except.map] at h
  | error f' => simpa [Functor.map, Except.map] using h

theorem bind_error {x : Except Failure α} {g : α → Except Failure β}
    (h : (x >>= g) = .error f) : x = .error f ∨ ∃ a, x = .ok a ∧ g a = .error f := by
  cases x with
  | ok a => exact Or.inr ⟨a, rfl, h⟩
  | error f' => exact Or.inl (by simpa [bind, Except.bind] using h)

theorem documentsOf_error {ds : List Datum} (h : documentsOf ds = .error f) :
    f.ofArguments = true := by
  induction ds with
  | nil => simp [documentsOf] at h
  | cons d ds ih =>
    rcases bind_error h with h | ⟨doc, -, h⟩
    · exact Datum.document_error h
    · rcases bind_error h with h | ⟨docs, -, h⟩
      · exact ih h
      · simp at h

theorem checkPassword_error {text : String} (h : checkPassword text = .error f) :
    f.ofArguments = true := by
  unfold checkPassword at h
  split at h
  · simp at h
  · exact Except.error.inj h ▸ rfl

namespace Command

/-- A command that makes no statement has a bad argument. -/
theorem statement_error {command : Command} (h : command.statement = .error f) :
    command.hasArguments = true ∧ f.ofArguments = true := by
  have hname {text : String} (h : Name.check text = .error f) : f.ofArguments = true :=
    Name.check_error h ▸ rfl
  cases command with
  | createDatabase | useDatabase | createCollection | dropCollection | print | remove
  | deleteProfile => exact ⟨rfl, hname (map_error h)⟩
  | dropDatabase name =>
    cases name with
    | none => simp [statement] at h
    | some name => exact ⟨rfl, hname (map_error h)⟩
  | listDatabases | listCollections | listProfiles | help | version | clear =>
    simp [statement] at h
  | insert collection document =>
    refine ⟨rfl, ?_⟩
    rcases bind_error h with h | ⟨n, -, h⟩
    · exact hname h
    · rcases bind_error h with h | ⟨doc, -, h⟩
      · exact Datum.document_error h
      · simp at h
  | insertMany collection documents =>
    refine ⟨rfl, ?_⟩
    rcases bind_error h with h | ⟨n, -, h⟩
    · exact hname h
    · rcases bind_error h with h | ⟨docs, -, h⟩
      · exact documentsOf_error h
      · simp at h
  | update collection action changes condition =>
    refine ⟨rfl, ?_⟩
    rcases bind_error h with h | ⟨n, -, h⟩
    · exact hname h
    · rcases bind_error h with h | ⟨doc, -, h⟩
      · exact Datum.document_error h
      · simp at h
  | createProfile user password role =>
    refine ⟨rfl, ?_⟩
    rcases bind_error h with h | ⟨-, -, h⟩
    · exact checkPassword_error h
    · rcases bind_error h with h | ⟨n, -, h⟩
      · exact hname h
      · simp at h
  | grant user database | revoke user database =>
    refine ⟨rfl, ?_⟩
    rcases bind_error h with h | ⟨n, -, h⟩
    · exact hname h
    · rcases bind_error h with h | ⟨m, -, h⟩
      · exact hname h
      · simp at h

end Command

end DocClient
