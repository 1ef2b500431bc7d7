/-
**The environment of a job.**

The variables that may be referred to in paths, and the home directory that `~` stands for: the
variable `HOME`, or the account's own directory when that variable is absent or empty.
-/

import ShaderForge.Path.Basic

namespace ShaderForge

/-- Variables with their values, and the directory of the account, if it has one. -/
structure Environment where
  values : List (String × String)
  account : Option String

namespace Environment

/-- The value of a variable. -/
def value? (environment : Environment) (name : String) : Option String :=
  environment.values.lookup name

/-- The value of a variable, if it is not empty. -/
def filled? (environment : Environment) (name : String) : Option String :=
  (environment.value? name).filter fun value => !value.isEmpty

/-- **The home directory.** -/
def home? (environment : Environment) : Option Path :=
  ((environment.filled? "HOME").or environment.account).map Path.mk

end Environment

end ShaderForge
