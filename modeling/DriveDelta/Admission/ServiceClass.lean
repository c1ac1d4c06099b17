/-!
# Classes of traffic

Outbound calls are grouped into classes, and each class draws from pools of its own.
-/

set_option autoImplicit false

namespace DriveDelta

/-- A class of traffic. -/
inductive ServiceClass where
  /-- Mail, contacts, calendars and whatever else is not listed. -/
  | standard
  /-- Listings of file libraries. -/
  | bulkContainer
  deriving DecidableEq, Repr, Inhabited

/-- The service that a call is for. -/
inductive Backend where
  | mail | contacts | calendar | drive | sites | groups | unknown
  deriving DecidableEq, Repr, Inhabited

/-- Services that hold file libraries are bulk traffic. -/
def Backend.serviceClass : Backend → ServiceClass
  | drive | sites | groups => .bulkContainer
  | mail | contacts | calendar | unknown => .standard

/-- The two kinds of pool that a class may have. -/
inductive PoolKind where
  /-- Its rate never changes. -/
  | static
  /-- Its rate follows what calls observe. -/
  | sliding
  deriving DecidableEq, Repr, Inhabited

/-- What an admitted call observed. -/
inductive Feedback where
  | success | throttled | neutral
  deriving DecidableEq, Repr, Inhabited

end DriveDelta
