/-!
# Profiles

The two ways to compile, one of which is chosen for all builds of a run.
-/

namespace BootDisk

/-- How everything in one run is compiled. -/
inductive Profile where
  | release
  | debug
  deriving DecidableEq, Repr, Inhabited

namespace Profile

/-- The name of the profile, which is also the directory that its builds end up in. -/
def name : Profile → String
  | release => "release"
  | debug => "debug"

/-- The option that asks for the profile; the debug profile is what is built without being asked for. -/
def flag? : Profile → Option String
  | release => some "--release"
  | debug => none

/-- The profile that a word stands for. -/
def ofWord? (word : String) : Option Profile :=
  if word = "release" ∨ word = "--release" then some release
  else if word = "debug" ∨ word = "--debug" ∨ word = "dev" then some debug
  else none

end Profile

end BootDisk
