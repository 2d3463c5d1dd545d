/-!
Plans: things that happen one after the other, each a while after the one before it. Times and
delays are in microseconds.
-/
namespace DocClient

/-- Each thing with the delay before it. -/
abbrev Plan (α : Type) := List (Nat × α)

/-- Each thing with the moment at which it happens, in order. -/
abbrev Schedule (α : Type) := List (Nat × α)

namespace Plan

variable {α : Type}

/-- All things at once. -/
def atOnce (things : List α) : Plan α := things.map fun a => (0, a)

/-- The moments of a plan that starts at a given one. -/
def begin (start : Nat) : Plan α → Schedule α
  | [] => []
  | (delay, a) :: rest => (start + delay, a) :: begin (start + delay) rest

end Plan

end DocClient
