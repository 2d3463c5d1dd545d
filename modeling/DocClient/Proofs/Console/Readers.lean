import DocClient.Console.Pipe

/-!
What the readers of a console's outputs do to its pipe. They take lines, of which the sink is told,
and all else that belongs to the pipe they leave alone.
-/
namespace DocClient.Pipe

variable {p q r : Pipe} {o o' : Outlet} {reader reader' : Reader} {line : String}

@[simp] theorem reader_withReader : (p.withReader o reader).reader o = reader := by
  cases o <;> rfl

theorem reader_withReader_of_ne (h : o' ≠ o) : (p.withReader o reader).reader o' = p.reader o' := by
  cases o <;> cases o' <;> first | rfl | exact absurd rfl h

@[simp] theorem withReader_withReader :
    (p.withReader o reader).withReader o reader' = p.withReader o reader' := by
  cases o <;> rfl

theorem read_withReader :
    (p.withReader o reader).read o' line = (p.read o' line).withReader o reader := by
  cases o <;> cases o' <;> rfl

@[simp] theorem reader_read : (p.read o' line).reader o = p.reader o := by
  cases o <;> cases o' <;> rfl

theorem foldl_read_withReader (lines : List String) :
    lines.foldl (read o') (p.withReader o reader)
      = (lines.foldl (read o') p).withReader o reader := by
  induction lines generalizing p with
  | nil => rfl
  | cons line lines ih => rw [List.foldl_cons, List.foldl_cons, read_withReader, ih]

@[simp] theorem reader_foldl_read (lines : List String) :
    (lines.foldl (read o') p).reader o = p.reader o := by
  induction lines generalizing p with
  | nil => rfl
  | cons line lines ih => exact ih.trans reader_read

theorem listens_iff : p.listens o = true ↔
    (p.reader o).phase = .waiting ∧ p.readersTold = false := by
  simp [listens]

/-- All else is as it was before the readers did something. -/
structure Aside (p q : Pipe) : Prop where
  label : q.label = p.label
  settleTime : q.settleTime = p.settleTime
  grace : q.grace = p.grace
  child : q.child = p.child
  clock : q.clock = p.clock
  inputOpen : q.inputOpen = p.inputOpen
  readersTold : q.readersTold = p.readersTold

theorem Aside.refl (p : Pipe) : Aside p p := ⟨rfl, rfl, rfl, rfl, rfl, rfl, rfl⟩

theorem Aside.trans (h : Aside p q) (h' : Aside q r) : Aside p r :=
  ⟨h'.label.trans h.label, h'.settleTime.trans h.settleTime, h'.grace.trans h.grace,
    h'.child.trans h.child, h'.clock.trans h.clock, h'.inputOpen.trans h.inputOpen,
    h'.readersTold.trans h.readersTold⟩

theorem aside_read (o : Outlet) (line : String) (p : Pipe) : Aside p (p.read o line) := by
  cases o <;> exact ⟨rfl, rfl, rfl, rfl, rfl, rfl, rfl⟩

theorem aside_withReader (o : Outlet) (reader : Reader) (p : Pipe) :
    Aside p (p.withReader o reader) := by
  cases o <;> exact ⟨rfl, rfl, rfl, rfl, rfl, rfl, rfl⟩

theorem aside_lines (o : Outlet) (lines : List String) (reader : Reader) (p : Pipe) :
    Aside p ((lines.foldl (read o) p).withReader o reader) := by
  induction lines generalizing p with
  | nil => exact aside_withReader o reader p
  | cons line lines ih => exact (aside_read o line p).trans (ih _)

theorem aside_take (chunk : Chunk) (p : Pipe) : Aside p (p.take chunk) := by
  unfold take
  split
  · exact aside_lines _ _ _ p
  · exact .refl p

theorem aside_takes (chunks : List Chunk) (p : Pipe) : Aside p (chunks.foldl take p) := by
  induction chunks generalizing p with
  | nil => exact .refl p
  | cons chunk chunks ih => exact (aside_take chunk p).trans (ih _)

theorem aside_takeTail (o : Outlet) (p : Pipe) : Aside p (p.takeTail o) := by
  unfold takeTail
  split
  · exact aside_lines _ _ _ p
  · exact .refl p

theorem aside_advance (moment : Nat) (p : Pipe) :
    Aside { p with child := (p.child.run moment).1, clock := max p.clock moment }
      (p.advance moment) := by
  have htaken := aside_takes (p.child.run moment).2
    { p with child := (p.child.run moment).1, clock := max p.clock moment }
  simp only [advance]
  split
  · exact htaken.trans ((aside_takeTail .standard _).trans (aside_takeTail .error _))
  · exact htaken

theorem child_advance (moment : Nat) (p : Pipe) :
    (p.advance moment).child = (p.child.run moment).1 := (aside_advance moment p).child

theorem clock_advance (moment : Nat) (p : Pipe) :
    (p.advance moment).clock = max p.clock moment := (aside_advance moment p).clock

/-- What a reader does besides taking lines concerns it alone, and at most a note is left of it. -/
theorem tend?_eq_some {a : Reader.Act} (h : p.tend? o a = some q) :
    ∃ (reader : Reader) (notes : List Note), (p.reader o).act? p.readersTold a = some reader ∧
      q = { p.withReader o reader with journal := p.journal ++ notes.map .note } := by
  obtain ⟨reader, hact, rfl⟩ := Option.map_eq_some_iff.mp h
  cases o <;> cases a
  case standard.fail fault => exact ⟨reader, [_], hact, rfl⟩
  all_goals exact ⟨reader, [], hact, by simp [noteFault, withReader]⟩

theorem aside_tend? {a : Reader.Act} (h : p.tend? o a = some q) : Aside p q := by
  obtain ⟨reader, notes, -, rfl⟩ := tend?_eq_some h
  have haside := aside_withReader o reader p
  exact ⟨haside.label, haside.settleTime, haside.grace, haside.child, haside.clock,
    haside.inputOpen, haside.readersTold⟩

/-- A reader that has been told to stop does not come to work any more. -/
theorem busy_of_tend? {a : Reader.Act} (h : p.tend? o a = some q) (htold : p.readersTold = true)
    (hbusy : (q.reader o').phase = .busy) : (p.reader o').phase = .busy := by
  obtain ⟨reader, notes, hact, rfl⟩ := tend?_eq_some h
  have hreader : ({ p.withReader o reader with journal := p.journal ++ notes.map .note } : Pipe).reader
      o' = (p.withReader o reader).reader o' := by cases o' <;> rfl
  rw [hreader] at hbusy
  by_cases heq : o' = o
  · subst heq
    rw [reader_withReader] at hbusy
    cases a <;> simp only [Reader.act?, htold] at hact <;> simp at hact
    all_goals
      obtain ⟨-, rfl⟩ := hact
      simp at hbusy
  · rwa [reader_withReader_of_ne heq] at hbusy

theorem buffer_tend? {a : Reader.Act} (h : p.tend? o a = some q) : q.buffer = p.buffer := by
  obtain ⟨reader, notes, -, rfl⟩ := tend?_eq_some h
  cases o <;> rfl

end DocClient.Pipe
