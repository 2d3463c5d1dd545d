import DocClient.Proofs.Console.Reading

/-!
What a console prints, line by line: each line end of an output is one line, and so is what stands
after the last of them when the output ends. A line is shown as it was printed, and what is no text
in it changes no other line.
-/
namespace DocClient

open Text (Bytes)

namespace Pipe

variable {p q start : Pipe} {chunks : List Chunk} {gone : List String} {ended : Outlet → Bool}
  {line : String} {sent : Except Failure Unit} {moment : Nat} {patience : Option Nat}

theorem Watched.takes (h : Watched start chunks gone (fun _ => false) p) (more : List Chunk) :
    Watched start (chunks ++ more) gone (fun _ => false) (more.foldl take p) := by
  induction more generalizing chunks p with
  | nil => simpa using h
  | cons chunk more ih => simpa using ih (h.reads chunk rfl)

/-- A console that is watched while time passes: its outputs end when it does. -/
abbrev Attends (start : Pipe) (chunks : List Chunk) (gone : List String) (p : Pipe) : Prop :=
  Watched start chunks gone (fun _ => p.hasEnded) p

theorem takeTail_of_stopped {o : Outlet} (h : (p.reader o).phase = .stopped) :
    p.takeTail o = p := by
  unfold takeTail
  rw [if_neg]
  simp [listens, h]

/-- Nothing more is read of a console that has ended. -/
theorem advance_of_hasEnded (hended : p.hasEnded = true)
    (hstopped : ∀ o, (p.reader o).phase = .stopped) (moment : Nat) :
    p.advance moment = { p with clock := max p.clock moment } := by
  simp only [Pipe.advance, Child.run_of_hasEnded hended moment, List.foldl_nil]
  rw [if_pos (show p.child.hasEnded = true from hended), takeTails, takeTail_of_stopped,
    takeTail_of_stopped]
  · exact hstopped .standard
  · rw [takeTail_of_stopped]
    · exact hstopped .error
    · exact hstopped .standard

/-- A console that goes on is read, and its outputs end if it does. -/
theorem Watched.advance (h : Watched start chunks gone (fun _ => false) p)
    (moment : Nat) : Watched start (chunks ++ (p.child.run moment).2) gone
      (fun _ => (p.child.run moment).1.hasEnded) (p.advance moment) := by
  have hread := (h.passes (p.child.run moment).1 (max p.clock moment) p.inputOpen).takes
    (p.child.run moment).2
  simp only [Pipe.advance]
  split
  · next hgone =>
    have hends := (hread.ends .standard rfl).ends .error rfl
    have hall : (fun o' : Outlet => decide (o' = .error) || (decide (o' = .standard) || false))
        = fun _ => true := by
      funext o
      cases o <;> rfl
    rw [hall] at hends
    rw [hgone]
    exact hends
  · next hgone =>
    rw [Bool.eq_false_iff.mpr hgone]
    exact hread

theorem Attends.advance (hs : start.Fresh) (h : Attends start chunks gone p) (moment : Nat) :
    Attends start (chunks ++ (p.child.run moment).2) gone (p.advance moment) := by
  cases hended : p.hasEnded with
  | true =>
    have hstopped : ∀ o, (p.reader o).phase = .stopped := by
      intro o
      simp [(divided_of_watched hs h).reader, hended]
    rw [Child.run_of_hasEnded hended, List.append_nil, advance_of_hasEnded hended hstopped]
    exact h.passes p.child _ p.inputOpen
  | false =>
    unfold Attends at h ⊢
    rw [hended] at h
    rw [hasEnded, child_advance]
    exact h.advance moment

/-- A line that is written changes nothing about how the console stands. -/
theorem ask_unchanged (h : p.ask line = (sent, q)) : q.hasEnded = p.hasEnded := by
  unfold ask send at h
  repeat' split at h
  all_goals
    obtain ⟨-, rfl⟩ := Prod.mk.inj h
    rfl

theorem Attends.ask (h : Attends start chunks gone p) (ha : p.ask line = (sent, q)) :
    Attends start chunks (gone ++ p.buffer.lines) q := by
  unfold Attends at h ⊢
  rw [ask_unchanged ha]
  exact h.clears.sends ha

theorem Attends.collect (h : Attends start chunks gone p) :
    Attends start chunks (gone ++ p.buffer.lines) p.collect.2 := h.collects rfl

/-- What the console writes while its answer to a line settles, or until the caller goes away. -/
def printed (p : Pipe) (line : String) (patience : Option Nat) : List Chunk :=
  match p.ask line with
  | (.error _, _) => []
  | (.ok (), q) => (q.child.run ((patience.filter (· < q.settled)).getD q.settled)).2

end Pipe

namespace ConsoleClient

open Pipe (Attends Watched)

variable {c s t : ConsoleClient} {a : Answer} {call : Call} {patience : Option Nat} {line : String}
  {chunks written : List Chunk} {gone : List String} {ended : Outlet → Bool} {p start : Pipe}

/-- What the console writes while a call has it for itself. -/
def printed (call : Call) (patience : Option Nat) (s : ConsoleClient) : List Chunk :=
  match call.line with
  | .ok (some line) =>
    if s.isOpen && isSingleLine line then s.pipe.printed line patience else []
  | .ok none | .error _ => []

/-- A client from its start on, with pauses and calls one after the other, and all that its console
has written. -/
inductive Attended (c : ConsoleClient) : List Chunk → ConsoleClient → Prop
  | begins : Attended c [] c
  | waits {written : List Chunk} {s : ConsoleClient} (moment : Nat) (h : Attended c written s) :
      Attended c (written ++ (s.pipe.child.run moment).2)
        { s with pipe := s.pipe.advance moment }
  | calls {written : List Chunk} {s t : ConsoleClient} {call : Call} {patience : Option Nat}
      {a : Answer} (h : Attended c written s) (hn : call ≠ .close)
      (hcall : s.call call patience = (a, t)) : Attended c (written ++ s.printed call patience) t

/-- Where nothing comes to be written the console is watched as before. -/
theorem attends_unprinted (h : Attends start chunks gone p) (hnone : written = []) :
    ∃ gone', Attends start (chunks ++ written) gone' p :=
  ⟨gone, by simpa [hnone] using h⟩

/-- A line that is sent, or not, leaves the console watched. -/
theorem attends_of_send (hs : start.Fresh) (h : Attends start chunks gone s.pipe)
    (hsend : s.send line patience = (a, t)) : ∃ gone', Attends start
      (chunks ++ if s.isOpen && isSingleLine line then s.pipe.printed line patience else [])
      gone' t.pipe := by
  unfold send at hsend
  split at hsend
  · next hclosed =>
    obtain ⟨-, rfl⟩ := Prod.mk.inj hsend
    exact attends_unprinted h (if_neg (by simp_all))
  · next hopen =>
    split at hsend
    · next hbroken =>
      obtain ⟨-, rfl⟩ := Prod.mk.inj hsend
      exact attends_unprinted h (if_neg (by simp_all))
    · next hsingle =>
      rw [if_pos (by simpa using And.intro hopen hsingle)]
      rcases hask : s.pipe.ask line with ⟨asked, pipe⟩
      have hasked := h.ask hask
      rw [hask] at hsend
      simp only [Pipe.printed, hask]
      cases asked with
      | error f =>
        obtain ⟨-, rfl⟩ := Prod.mk.inj hsend
        exact ⟨_, by simpa using hasked⟩
      | ok =>
        dsimp only at hsend ⊢
        split at hsend
        · next moment hpatience =>
          obtain ⟨-, rfl⟩ := Prod.mk.inj hsend
          rw [hpatience]
          exact ⟨_, hasked.advance hs moment⟩
        · next hpatience =>
          obtain ⟨-, rfl⟩ := Prod.mk.inj hsend
          rw [hpatience]
          exact ⟨_, (hasked.advance hs pipe.settled).collect⟩

theorem attends_of_call (hs : start.Fresh) (h : Attends start chunks gone s.pipe)
    (hn : call ≠ .close) (hcall : s.call call patience = (a, t)) :
    ∃ gone', Attends start (chunks ++ s.printed call patience) gone' t.pipe := by
  have hsame {t : ConsoleClient} (ht : s = t) (hnone : s.printed call patience = []) :
      ∃ gone', Attends start (chunks ++ s.printed call patience) gone' t.pipe := by
    subst ht
    exact attends_unprinted h hnone
  cases call with
  | raw line | execute statement => exact attends_of_send hs h hcall
  | probe => exact hsame (Prod.mk.inj hcall).2 rfl
  | close => exact absurd rfl hn
  | command command =>
    simp only [ConsoleClient.call] at hcall
    cases hstatement : command.statement with
    | error f =>
      have hnone : s.printed (.command command) patience = [] := by
        simp only [printed, Call.line, hstatement]
        rfl
      split at hcall
      · exact hsame (Prod.mk.inj hcall).2 hnone
      · rw [hstatement] at hcall
        exact hsame (Prod.mk.inj hcall).2 hnone
    | ok statement =>
      have hprinted : s.printed (.command command) patience
          = if s.isOpen && isSingleLine statement.line then
              s.pipe.printed statement.line patience else [] := by
        simp only [printed, Call.line, hstatement]
        rfl
      rw [hprinted]
      split at hcall
      · next hclosed =>
        obtain ⟨-, rfl⟩ := Prod.mk.inj hcall
        exact attends_unprinted h (if_neg (by simp_all))
      · rw [hstatement] at hcall
        exact attends_of_send hs h hcall

theorem attends_of_attended (hs : c.pipe.Fresh) (hrunning : c.pipe.hasEnded = false)
    (h : Attended c written s) : ∃ gone, Attends c.pipe written gone s.pipe := by
  induction h with
  | begins =>
    refine ⟨[], ?_⟩
    rw [Attends, hrunning]
    exact .begins
  | waits moment _ ih =>
    obtain ⟨gone, h⟩ := ih
    exact ⟨gone, h.advance hs moment⟩
  | calls _ hn hcall ih =>
    obtain ⟨gone, h⟩ := ih
    exact attends_of_call hs h hn hcall

/-- A console that has just been started. -/
theorem fresh_of_spawn {settings : ConsoleSettings} {label : String} {console : Launch}
    (hc : spawn settings label console = .ok c) :
    c.pipe.Fresh ∧ c.pipe.hasEnded = false := by
  cases console with
  | error fault => cases hc
  | ok console =>
    obtain rfl := Except.ok.inj hc
    refine ⟨⟨rfl, ?_, ?_, rfl⟩, rfl⟩
    · rintro (_ | _) <;> rfl
    · rintro (_ | _) <;> rfl

/-- What has been made of the output that has been read. -/
structure Transcribed (chunks : List Chunk) (gone : List String) (ended : Outlet → Bool)
    (p : Pipe) : Prop where
  /-- No reader stops before its output ends. -/
  running : ∀ o, ended o = false → p.listens o = true
  whole : ∀ o : Outlet, ∃ pieces rest, Text.Lines Child.lineFeed (o.stream chunks) pieces rest
  /-- There is a line for each line end, and when the output has ended one for what stands after
  the last of them. -/
  divided : ∀ (o : Outlet) (pieces rest),
    Text.Lines Child.lineFeed (o.stream chunks) pieces rest →
      pieces.length = (o.stream chunks).count Child.lineFeed ∧
        p.told o = (pieces ++ if ended o = true ∧ rest ≠ [] then [rest] else []).map Pipe.lineOf
  /-- What is told of the standard output is captured in the same order. -/
  captured : p.told .standard = gone ++ p.buffer.lines
  /-- Another piece in the same place of any output changes no other line. -/
  elsewhere : ∀ {settings label console c' chunks' gone' p'},
    spawn settings label console = .ok c' → Watched c'.pipe chunks' gone' ended p' →
      ∀ {o : Outlet} {before piece piece' after}, o.stream chunks = before ++ piece ++ after →
        o.stream chunks' = before ++ piece' ++ after →
        (before = [] ∨ before.getLast? = some Child.lineFeed) →
        (after = [] ∨ after.head? = some Child.lineFeed) →
        Child.lineFeed ∉ piece → Child.lineFeed ∉ piece' → ∃ front back,
          front.length = before.count Child.lineFeed ∧
          p.told o = front ++ (Outlet.lineAt (ended o) piece after).map Pipe.lineOf ++ back ∧
          p'.told o = front ++ (Outlet.lineAt (ended o) piece' after).map Pipe.lineOf ++ back

theorem transcribed_of_watched {settings : ConsoleSettings} {label : String} {console : Launch}
    (hc : spawn settings label console = .ok c) (h : Watched c.pipe chunks gone ended p) :
    Transcribed chunks gone ended p := by
  have hdivided := Pipe.divided_of_watched (fresh_of_spawn hc).1 h
  refine ⟨fun o ho => hdivided.listens ho, ?_, ?_, hdivided.captured, ?_⟩
  · intro o
    exact ⟨_, _, Text.lines_frames Child.lineFeed _⟩
  · intro o pieces rest hlines
    exact ⟨hlines.length, by rw [hdivided.told, Outlet.pieces_of_lines hlines]⟩
  · intro settings' label' console' c' chunks' gone' p' hc' h' o before piece piece' after hs hs' hb
      ha hp hp'
    have hdivided' := Pipe.divided_of_watched (fresh_of_spawn hc').1 h'
    refine ⟨(Text.frames Child.lineFeed before).1.map Pipe.lineOf,
      (Outlet.pieces (ended o) (after.drop 1)).map Pipe.lineOf, ?_, ?_, ?_⟩
    · rw [List.length_map, Text.length_frames]
    · rw [hdivided.told, hs, Outlet.pieces_around hb ha hp, List.map_append, List.map_append]
    · rw [hdivided'.told, hs', Outlet.pieces_around hb ha hp', List.map_append, List.map_append]

/-- A console's output is read line by line, whatever is in it, however it comes in and whatever
else is done with the console, and nothing of it is lost. -/
theorem output_transcribed {settings : ConsoleSettings} {label : String} {console : Launch}
    (hc : spawn settings label console = .ok c) :
    (∀ chunks gone ended p, Watched c.pipe chunks gone ended p → Transcribed chunks gone ended p) ∧
      (∀ written s, Attended c written s →
        ∃ gone, Watched c.pipe written gone (fun _ => s.pipe.hasEnded) s.pipe) ∧
      (∀ piece shown, Text.Mends (Text.dropReturn piece) shown ↔
        shown = (Pipe.lineOf piece).toList) ∧
      ∀ text : String, Pipe.lineOf (Text.utf8 text ++ [0x0D]) = text ∧
        (text.toList.getLast? ≠ some '\r' → Pipe.lineOf (Text.utf8 text) = text) := by
  obtain ⟨hfresh, hrunning⟩ := fresh_of_spawn hc
  refine ⟨fun _ _ _ _ h => transcribed_of_watched hc h, ?_, ?_, ?_⟩
  · intro written s h
    exact attends_of_attended hfresh hrunning h
  · intro piece shown
    constructor
    · intro h
      exact h.unique (Text.mends_decodeLenient _)
    · rintro rfl
      exact Text.mends_decodeLenient _
  · intro text
    refine ⟨?_, ?_⟩
    · rw [Pipe.lineOf, Text.dropReturn_concat, Text.decodeLenient_utf8]
    · intro hlast
      rw [Pipe.lineOf, Text.dropReturn_utf8 hlast, Text.decodeLenient_utf8]

/-- It prints a line with a carriage return, one that is no text and comes in two halves, and a last
one that has no end. -/
def rambling : Console where
  start := Plan.atOnce [.stdout [0x61, 0x0D, 0x0A, 0xFF], .stderr [0x77],
    .stdout [0xC3, 0x0A, 0x62], .exit 0]
  answer _ := []
  atEnd := []

theorem output_transcribed_rambling : ∃ c,
    spawn { executable := "console" } "console" (.ok rambling) = .ok c ∧
      (c.pipe.advance 0).told .standard = ["a", "\uFFFD\uFFFD", "b"] ∧
      (c.pipe.advance 0).told .error = ["w"] := by
  obtain ⟨c, hc⟩ : ∃ c, spawn { executable := "console" } "console" (.ok rambling) = .ok c :=
    ⟨_, rfl⟩
  obtain ⟨hread, hattended, -, -⟩ := output_transcribed hc
  obtain ⟨gone, hw⟩ := hattended _ _ (.waits 0 .begins)
  have hlines := (hread _ _ _ _ hw).divided
  obtain rfl := Except.ok.inj hc
  refine ⟨_, rfl, ?_, ?_⟩
  · rw [(hlines .standard [[0x61, 0x0D], [0xFF, 0xC3]] [0x62]
      ⟨by decide +kernel, by decide, by decide⟩).2]
    decide +kernel
  · rw [(hlines .error [] [0x77] ⟨by decide +kernel, by decide, by decide⟩).2]
    decide +kernel

end ConsoleClient

end DocClient
