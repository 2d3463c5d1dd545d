import DocClient.Client.Basic

/-! Servers that follow a script: a reaction for each line by its number. -/
namespace DocClient.Script

open Text (Bytes)

inductive ResponderEnding where
  | goOn
  | hangUp
  | reset
  deriving DecidableEq, Repr

structure ResponderAction where
  bytes : Bytes := []
  ending : ResponderEnding := .goOn
  /-- How long the server then rests, in microseconds. -/
  rest : Nat := 0
  deriving DecidableEq, Repr

namespace ResponderAction

/-- A rest is an emission of no bytes, late. -/
def plan (a : ResponderAction) : Plan Emission :=
  (0, .bytes a.bytes)
    :: (match a.ending with
      | .goOn => []
      | .hangUp => [(0, .hangUp)]
      | .reset => [(0, .reset)])
    ++ if a.rest = 0 then [] else [(a.rest, .bytes [])]

end ResponderAction

structure Responder where
  accept : ResponderAction := {}
  replies : List ResponderAction := []
  usual : ResponderAction := { ending := .hangUp }
  deriving DecidableEq, Repr

namespace Responder

def server (r : Responder) : Server where
  accept := r.accept.plan
  answer heard := ((r.replies[heard.length - 1]?).getD r.usual).plan

end Responder

/-- The same server, except that it does not answer the line of a given number. -/
def silentAt (number : Nat) (s : Server) : Server :=
  { s with answer := fun heard => if heard.length = number then [] else s.answer heard }

end DocClient.Script
