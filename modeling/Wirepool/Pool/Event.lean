/-!
# Events

What a pool does beyond answering is told as events. One kind of event, a lost
loan, is also a *report* to whoever watches for leaks. Several *trackers* may
come and go, and a report is delivered to the one that is installed just then.
-/

namespace Wirepool

/-- **A loan that was lost instead of given back.** -/
structure LeakReport where
  /-- The size of the page. -/
  capacity : Nat
  /-- The length that was asked for. -/
  len : Nat
  /-- The generation of the loan. -/
  generation : Nat
  /-- Whether it is known where the loan was made. -/
  traced : Bool
  deriving DecidableEq, Repr

/-- **Whoever receives reports**, by a number of its own. -/
structure Tracker where
  number : Nat := 0
  deriving DecidableEq, Repr

/-- **A report that was delivered**, and who received it. -/
structure Delivery where
  tracker : Tracker
  report : LeakReport
  deriving DecidableEq, Repr

/-- What is delivered of a row of reports: all of them go to the tracker that is
installed, and if there is none they go to nobody. -/
def deliver : Option Tracker → List LeakReport → List Delivery
  | some tracker, reports => reports.map (Delivery.mk tracker)
  | none, _ => []

/-- **Something worth telling.** -/
inductive Event where
  /-- A size class had no page left and made another one. -/
  | grew (position capacity created : Nat)
  /-- A request was served by the system. -/
  | bypassed (len : Nat)
  /-- A loan was lost. -/
  | leaked (report : LeakReport)
  /-- The writing pass of an encoder failed and its destination was given
  back. -/
  | abandoned (length : Nat)
  deriving DecidableEq, Repr

/-- How much an event matters. -/
inductive Severity where
  | trace
  | debug
  | warning
  deriving DecidableEq, Repr

namespace Event

/-- How much the event matters. -/
def severity : Event → Severity
  | grew _ _ _ => .debug
  | bypassed _ => .trace
  | leaked _ => .warning
  | abandoned _ => .debug

/-- The text of the event. -/
def message : Event → String
  | grew _ _ _ => "pool class grew"
  | bypassed _ => "pool bypass allocation"
  | leaked _ => "pooled ref dropped without release"
  | abandoned _ => "encode write pass failed, releasing destination"

/-- The named numbers that belong to the text. -/
def fields : Event → List (String × Nat)
  | grew position capacity created =>
    [("class", position), ("capacity", capacity), ("created", created)]
  | bypassed len => [("len", len)]
  | leaked report =>
    [("capacity", report.capacity), ("len", report.len), ("generation", report.generation)]
  | abandoned length => [("length", length)]

end Event

end Wirepool
