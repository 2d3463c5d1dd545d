import DocClient.Journal
import Mathlib.Data.List.Forall2

/-! Journals, and the journals of two runs in which different lines are written. -/
namespace DocClient

/-- Notes are no events. -/
@[simp] theorem Sink.events_notes (journal : Journal) (notes : List Note) :
    collect.events (journal ++ notes.map .note) = collect.events journal := by
  simp [events, List.filterMap_map]

variable {Lines : String → String → Prop} {journal journal' : Journal}

/-- Events that may be told in two runs at a time. -/
inductive Event.Beside (Lines : String → String → Prop) : Event → Event → Prop
  | same (event : Event) : Beside Lines event event
  | sent {line line' : String} (h : Lines line line') : Beside Lines (.sent line) (.sent line')

inductive Entry.Beside (Lines : String → String → Prop) : Entry → Entry → Prop
  | event {event event' : Event} (h : Event.Beside Lines event event') :
      Beside Lines (.event event) (.event event')
  | note (n : Note) : Beside Lines (.note n) (.note n)

/-- Journals in which only what is told of lines written may differ. -/
abbrev Journal.Beside (Lines : String → String → Prop) : Journal → Journal → Prop :=
  List.Forall₂ (Entry.Beside Lines)

theorem Entry.Beside.same (entry : Entry) : Entry.Beside Lines entry entry := by
  cases entry with
  | event event => exact .event (.same event)
  | note n => exact .note n

theorem Journal.Beside.append {entry entry' : Entry} (h : journal.Beside Lines journal')
    (he : entry.Beside Lines entry') :
    Journal.Beside Lines (journal ++ [entry]) (journal' ++ [entry']) :=
  List.rel_append h (.cons he .nil)

theorem Journal.Beside.events (h : journal.Beside Lines journal') (sink : Sink) :
    List.Forall₂ (Event.Beside Lines) (sink.events journal) (sink.events journal') := by
  have hcollect : List.Forall₂ (Event.Beside Lines) (Sink.collect.events journal)
      (Sink.collect.events journal') := by
    induction h with
    | nil => exact .nil
    | cons he _ ih =>
      cases he with
      | event he => exact .cons he ih
      | note n => exact ih
  cases sink with
  | log | discard => exact .nil
  | collect => exact hcollect

end DocClient
