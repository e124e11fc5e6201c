import AgentBack.Procurement.Allocation

/-!
# Records of the supply agents

What the records of the picker, the dispatcher and the preparation engineer have in common: optional
texts, which Python reads as false when they are missing or empty, datetimes, and the issues that the
validation of a case finds.
-/

namespace AgentBack.Supply

/-- Whether an optional text is true for Python. -/
def isGiven (value : Option String) : Bool := value.any (· ≠ "")

/-- `first or second`. -/
def givenOr (first second : Option String) : Option String :=
  if isGiven first then first else second

/-- `dict.fromkeys(values)`, as a list. -/
def distinct (values : List String) : List String := values.eraseDups

/-- The instant of a datetime, in microseconds; without a zone it is read as UTC (`_aware`). -/
def instant (value : Procurement.DateTime) : Int := value.wall - value.utcOffset.getD 0

/-- What two datetimes are equal in: whether they have a zone, and the instant. -/
def momentKey (value : Procurement.DateTime) : Bool × Int := (value.utcOffset.isSome, instant value)

/-- `a < b`; no answer (a `TypeError`) when one has a zone and the other has none. -/
def before (a b : Procurement.DateTime) : Option Bool :=
  if a.utcOffset.isSome = b.utcOffset.isSome then some (instant a < instant b) else none

/-- Whether all datetimes of a list may be compared with each other. -/
def comparable (values : List Procurement.DateTime) : Bool :=
  values.all (fun value => value.utcOffset.isSome) || values.all fun value => value.utcOffset.isNone

/-- `timedelta(days=days)`, in microseconds. -/
def dayMicros (days : Int) : Int := days * 86400000000

inductive IssueSource where
  | case
  | oneC
  | specification
  | supply
  | calculation
  deriving DecidableEq

structure ValidationIssue where
  code : String
  message : String
  field : Option String
  lineId : Option String := none
  source : IssueSource := .case
  blocking : Bool := true
  deriving DecidableEq

end AgentBack.Supply
