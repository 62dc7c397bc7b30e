/-!
# The environment

The variables that are set around a program. Where a program is configured an empty value is as
good as none; `Environment.nonempty` says so.
-/

namespace Salvage

/-- The value of a variable, if it is set. -/
abbrev Environment := String → Option String

namespace Environment

/-- The environment with the given variables. -/
def ofList (pairs : List (String × String)) : Environment := fun name =>
  pairs.lookup name

/-- The environment without the variables that are empty. -/
def nonempty (env : Environment) : Environment := fun name =>
  (env name).filter (· ≠ "")

end Environment

end Salvage
