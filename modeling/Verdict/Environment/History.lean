import Verdict.Environment.Basic
import Verdict.Failure

/-!
# Histories of an environment

An environment may be revised time and again: replaced by another one, overridden by it, or
completed by it. New bindings that are rejected leave the environment as it is.
-/

namespace Verdict

namespace Environment

/-- How new bindings meet the current ones. -/
inductive Mode where
  /-- The new bindings take the place of all current ones. -/
  | replace
  /-- The new bindings prevail over the current ones. -/
  | override
  /-- The current bindings prevail over the new ones. -/
  | complete
  deriving DecidableEq

/-- New bindings, which may have been rejected, and how they meet the current ones. -/
structure Revision where
  mode : Mode
  given : Except Failure Environment

/-- The environment after new bindings. -/
def combine (env : Environment) : Mode → Environment → Environment
  | .replace, new => new
  | .override, new => env.merge new
  | .complete, new => new.merge env

/-- The environment after a revision. -/
def revise (env : Environment) (r : Revision) : Environment :=
  match r.given with
  | .error _ => env
  | .ok new => env.combine r.mode new

/-- The environment after a history that begins with nothing bound. -/
def afterHistory (rs : List Revision) : Environment :=
  rs.foldl revise empty

end Environment

end Verdict
