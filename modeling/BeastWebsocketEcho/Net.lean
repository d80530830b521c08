import Mathlib.Tactic

/-!
# What the programs take from the network library

Error codes, the two ways of handing a function object to an executor, and the
life of one asynchronous operation. An operation that was started is pending;
cancelling it makes it end with an error, unless its completion was already queued,
which a cancel leaves alone.
-/

namespace BeastWebsocketEcho

inductive Error
  | operationAborted | connectionAborted | closed | other (value : ℕ)
  deriving DecidableEq, Repr

/-- `none` is the error code that tests false. -/
abbrev ErrorCode := Option Error

inductive Submission
  | post | dispatch
  deriving DecidableEq, Repr

/-- Whether a submitted function object runs before the submitting call returns:
`dispatch` runs it at once when the caller is already on the executor, `post` never does. -/
def Submission.inline : Submission → Bool → Bool
  | .post, _ => false
  | .dispatch, onExecutor => onExecutor

@[simp] theorem Submission.inline_post (onExecutor : Bool) :
    Submission.post.inline onExecutor = false := rfl
@[simp] theorem Submission.inline_dispatch (onExecutor : Bool) :
    Submission.dispatch.inline onExecutor = onExecutor := rfl

end BeastWebsocketEcho
