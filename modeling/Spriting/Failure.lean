/-!
# Failures

What a library or a device fails with is not known in advance.  Only two things
are told of it: its kind, by which it is handled, and its text.
-/

namespace Spriting

inductive FailureKind where
  /-- An error of the operating system. -/
  | system
  /-- A value that cannot be used. -/
  | value
  /-- An error in the library itself. -/
  | internal
  | other
deriving DecidableEq, Repr

structure Failure where
  kind : FailureKind
  text : String
deriving DecidableEq, Repr

end Spriting
