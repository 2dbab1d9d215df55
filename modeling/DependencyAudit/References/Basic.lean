/-
# DependencyAudit.References.Basic -- the classes that a project refers to

What an audit needs to know of a project's code is which classes it uses at all and
which of them its public surface mentions.
-/
import DependencyAudit.NameSet

namespace DependencyAudit

set_option autoImplicit false

/-- The classes that a project's code refers to. -/
structure References where
  /-- All of them. -/
  used : NameSet
  /-- Those that the public surface mentions. -/
  api : NameSet
deriving DecidableEq

end DependencyAudit
