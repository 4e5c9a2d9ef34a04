import TabletopDice.Record.Basic

/-!
# The tool

Records for callers that see a message and nothing else: a rejection reaches
them as its text alone, which starts with the name of the fault.
-/

namespace TabletopDice

/-- A failure as the tool reports it: a rejection is reduced to its message. -/
inductive ToolFailure where
  | refused (message : String)
  | other (failure : Failure)
  deriving DecidableEq, Repr

def ToolFailure.ofFailure : Failure → ToolFailure
  | .rejected rejection => .refused rejection.message
  | failure => .other failure

def ToolFailure.message : ToolFailure → String
  | .refused message => message
  | .other failure => failure.message

/-- The tool: the record of an order, or the reason why there is none. -/
def Order.serve {σ : Type} (source : Source σ) (stamp : Stamp) (order : Order) :
    EStateM ToolFailure (Feed σ) Record :=
  EStateM.adaptExcept ToolFailure.ofFailure (order.fulfil source stamp)

end TabletopDice
