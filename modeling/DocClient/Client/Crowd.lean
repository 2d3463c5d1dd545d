import DocClient.Client.Call

/-!
Several callers at one client, which serves them in the order in which they come. Who finds it
busy waits in line; a guarded call waits once for its look at the client and once more, behind all
others, for its work.
-/
namespace DocClient.Client

/-- A caller's place and what became of the call. -/
abbrev Answered := List (Nat × Answer)

/-- A caller that waits for its work. -/
abbrev Waiting := List (Nat × Work)

/-- Whether a call came to wait for the server: it wrote something. -/
def hasWritten (before after : Client) : Bool :=
  before.endpoint.link.transcript.length < after.endpoint.link.transcript.length

/-- The callers in line take their first turn: a guarded call looks, any other does its work. -/
def firstTurns : List (Nat × Call) → Client → Answered × Waiting × Client
  | [], c => ([], [], c)
  | (place, call) :: rest, c =>
    match c.prepare call with
    | .error f =>
      let (answers, waiting, c) := firstTurns rest c
      ((place, .failed f) :: answers, waiting, c)
    | .ok work =>
      if call.isGuarded then
        let (answers, waiting, c) := firstTurns rest c
        (answers, (place, work) :: waiting, c)
      else
        let (answer, c) := work.run none c
        let (answers, waiting, c) := firstTurns rest c
        ((place, answer) :: answers, waiting, c)

/-- The callers still in line take their second turn. -/
def secondTurns : Waiting → Client → Answered × Client
  | [], c => ([], c)
  | (place, work) :: rest, c =>
    let (answer, c) := work.run none c
    let (answers, c) := secondTurns rest c
    ((place, answer) :: answers, c)

/-- Callers are served at once until one of them has to wait for the server; the others then stand
in line. -/
def arrive : List (Nat × Call) → Client → Answered × Client
  | [], c => ([], c)
  | (place, call) :: rest, c =>
    let (answer, after) := c.call call none
    if hasWritten c after then
      let (answers, waiting, after) := firstTurns rest after
      let (late, after) := secondTurns waiting after
      ((place, answer) :: (answers ++ late), after)
    else
      let (answers, after) := arrive rest after
      ((place, answer) :: answers, after)

/-- Calls that start together, each with its answer in the order of the calls. -/
def together (calls : List Call) (c : Client) : List Answer × Client :=
  let numbered := calls.zipIdx.map fun call => (call.2, call.1)
  let (answers, c) := arrive numbered c
  ((List.range calls.length).filterMap fun place =>
    (answers.find? fun answer => answer.1 == place).map (·.2), c)

end DocClient.Client
