import Mathlib.Data.List.Basic

/-!
# The equipment status registry

Model of `src/api/services/equipment_status_machine.py`: the legal values of
`equipment_records.status`, the metadata of each and the denylist of edges.
The policy is a denylist: a pair that is not listed is allowed.

Results:
* `Status.ofValue?_eq_some`: the wire value of a status determines it.
* `isForbiddenTransition_iff`: the four banned edges.
* `not_forbidden_into`: no edge into `appraisal_complete` or one of the four
  later working statuses is banned.
-/

namespace TempleConsign

/-- `Status` (line 39). -/
inductive Status
  | newRequest
  | appraiserAssigned
  | appraisalScheduled
  | appraisalComplete
  | offerReady
  | approvedPendingEsign
  | esignedPendingPublish
  | listed
  | sold
  | declined
  | withdrawn
  deriving DecidableEq, Repr

namespace Status

/-- The value stored in the column and sent on the wire. -/
def value : Status → String
  | newRequest => "new_request"
  | appraiserAssigned => "appraiser_assigned"
  | appraisalScheduled => "appraisal_scheduled"
  | appraisalComplete => "appraisal_complete"
  | offerReady => "offer_ready"
  | approvedPendingEsign => "approved_pending_esign"
  | esignedPendingPublish => "esigned_pending_publish"
  | listed => "listed"
  | sold => "sold"
  | declined => "declined"
  | withdrawn => "withdrawn"

/-- The enum in its source order. -/
def all : List Status :=
  [newRequest, appraiserAssigned, appraisalScheduled, appraisalComplete, offerReady,
    approvedPendingEsign, esignedPendingPublish, listed, sold, declined, withdrawn]

/-- `Status(value)`: the status with this value. -/
def ofValue? (v : String) : Option Status := all.find? fun s => s.value = v

theorem ofValue?_value (s : Status) : ofValue? s.value = some s := by cases s <;> decide

theorem ofValue?_eq_some {v : String} {s : Status} : ofValue? v = some s ↔ s.value = v := by
  constructor
  · intro h
    have := List.find?_some h
    simpa using this
  · rintro rfl
    exact ofValue?_value s

end Status

/-- `StatusMeta` (line 60). -/
structure StatusMeta where
  display : String
  notifiesCustomer : Bool := false
  notifiesSalesRep : Bool := false
  isTerminal : Bool := false

/-- `_REGISTRY` (line 86). -/
def registry : Status → StatusMeta
  | .newRequest => { display := "New request received" }
  | .appraiserAssigned => { display := "An appraiser has been assigned" }
  | .appraisalScheduled =>
    { display := "An appraisal has been scheduled", notifiesCustomer := true }
  | .appraisalComplete => { display := "Your appraisal is complete", notifiesCustomer := true }
  | .offerReady => { display := "Your offer is ready to review", notifiesCustomer := true }
  | .approvedPendingEsign =>
    { display := "Approved — ready for eSign", notifiesSalesRep := true }
  | .esignedPendingPublish =>
    { display := "Signed — ready to publish", notifiesSalesRep := true }
  | .listed => { display := "Your equipment is now listed", notifiesCustomer := true }
  | .sold =>
    { display := "Your equipment has sold", notifiesCustomer := true, isTerminal := true }
  | .declined =>
    { display := "Your submission has been declined", notifiesCustomer := true,
      isTerminal := true }
  | .withdrawn => { display := "Your submission has been withdrawn", isTerminal := true }

/-- `FORBIDDEN_TRANSITIONS` (line 137). -/
def forbiddenTransitions : List (Status × Status) :=
  [(.sold, .newRequest), (.declined, .newRequest), (.sold, .listed), (.sold, .appraisalScheduled)]

/-- `is_terminal` (line 190). -/
def isTerminal (s : Status) : Bool := (registry s).isTerminal

/-- `is_forbidden_transition` (line 198). -/
def isForbiddenTransition (source target : Status) : Bool :=
  (source, target) ∈ forbiddenTransitions

theorem isTerminal_iff {s : Status} :
    isTerminal s = true ↔ s = .sold ∨ s = .declined ∨ s = .withdrawn := by
  cases s <;> simp [isTerminal, registry]

theorem isForbiddenTransition_iff {s t : Status} :
    isForbiddenTransition s t = true ↔
      (s = .sold ∧ (t = .newRequest ∨ t = .listed ∨ t = .appraisalScheduled)) ∨
      (s = .declined ∧ t = .newRequest) := by
  cases s <;> cases t <;> decide

/-- Only `new_request`, `listed` and `appraisal_scheduled` have a banned edge
    into them. -/
theorem not_forbidden_into (s : Status) {t : Status}
    (ht : t ≠ .newRequest ∧ t ≠ .listed ∧ t ≠ .appraisalScheduled) :
    isForbiddenTransition s t = false := by
  rw [← Bool.not_eq_true, isForbiddenTransition_iff]
  rintro (⟨-, h | h | h⟩ | ⟨-, h⟩)
  · exact ht.1 h
  · exact ht.2.1 h
  · exact ht.2.2 h
  · exact ht.1 h

end TempleConsign
