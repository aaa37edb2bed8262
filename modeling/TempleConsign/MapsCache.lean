import TempleConsign.LeadRouting
import TempleConsign.Lib.ReadThrough

/-!
# Drive times and coordinates

Model of `src/api/services/google_maps_service.py`: drive times (line 67) and coordinates
(line 202) come from Google, each with its own table in front of it. Scheduling asks for the
one and lead routing for the other, inside their own transactions.

A failed request and an answer without a value give `None` and write nothing. The `except`
names `HTTPError`, `ValueError` and `KeyError`: a body of another shape than Google's raises
its `AttributeError` or `TypeError` through the call, which returns nothing then.

Deviations: the tables are those of the read-through library, so a write becomes visible when
its transaction commits and the row lock of the upsert is left out, which allows more
interleavings than PostgreSQL; numbers are exact; `fetched_at`, which nothing reads, is left
out; `digest` is SHA-256 and `lower` is `str.lower`.

Results:
* `maps_answers_fresh`: a drive time or a coordinate is what Google answered for the same
  addresses within six hours or thirty days.
* `maps_answers_spaced`: stored answers for the same addresses lie that far apart. An answer
  without a value, or one whose transaction is rolled back, is not stored, and the next call
  asks Google again.
-/

namespace TempleConsign.Maps

open ServiceLib ServiceLib.ReadThrough
open LeadRouting (Json Dict)

/-! ## Google's answers -/

/-- The exceptions of reading a JSON value. -/
inductive PyError
  | keyError
  | indexError
  | attributeError
  | typeError
  deriving DecidableEq

/-- `value.get(key)`. -/
def field (value : Json) (key : String) : Except PyError Json :=
  match value with
  | .obj fields => .ok (Dict.get fields key)
  | _ => .error .attributeError

/-- `value[0]`. -/
def first : Json → Except PyError Json
  | .arr (item :: _) => .ok item
  | .arr [] => .error .indexError
  | .str s =>
    match s.toList with
    | c :: _ => .ok (.str (String.ofList [c]))
    | [] => .error .indexError
  | .obj _ => .error .keyError
  | _ => .error .typeError

/-- `value == "OK"`. -/
def isOk : Json → Bool
  | .str s => s = "OK"
  | _ => false

/-- The value when `isinstance(value, int)`; a `bool` is one. -/
def asInt : Json → Option ℤ
  | .int n => some n
  | .bool b => some (if b then 1 else 0)
  | _ => none

/-- `float(value)` when `isinstance(value, (int, float))`. -/
def asFloat : Json → Option ℚ
  | .float q => some q
  | value => (asInt value).map fun n => (n : ℚ)

/-- `_parse_distance_matrix` (line 139). -/
def parseDistanceMatrix (body : Json) : Except PyError (Option ℤ) := do
  if !isOk (← field body "status") then return none
  let rows ← field body "rows"
  if !rows.truthy then return none
  let elements ← field (← first rows) "elements"
  if !elements.truthy then return none
  let el ← first elements
  if !isOk (← field el "status") then return none
  let inTraffic ← field el "duration_in_traffic"
  let duration ← if inTraffic.truthy then pure inTraffic else field el "duration"
  match duration with
  | .obj fields => return asInt (Dict.get fields "value")
  | _ => return none

/-- `value or {}`. -/
def orEmpty (value : Json) : Json := if value.truthy then value else .obj []

/-- `_parse_geocode` (line 255). -/
def parseGeocode (body : Json) : Except PyError (Option (ℚ × ℚ)) := do
  if !isOk (← field body "status") then return none
  let results ← field body "results"
  if !results.truthy then return none
  let geometry := orEmpty (← field (← first results) "geometry")
  let location := orEmpty (← field geometry "location")
  let lat := asFloat (← field location "lat")
  let lng := asFloat (← field location "lng")
  return lat.bind fun lat => lng.map fun lng => (lat, lng)

/-- What a request comes to: no response or an error status (`httpx.HTTPError`), a body that
    is not JSON (`ValueError`), or a body. -/
inductive HttpOutcome
  | httpError
  | notJson
  | body (json : Json)

/-- The `try` around a request and its parser (lines 103 and 224). -/
def guarded {ν : Type} (parse : Json → Except PyError (Option ν)) :
    HttpOutcome → Except PyError (Option ν)
  | .httpError => .ok none
  | .notJson => .ok none
  | .body json =>
    match parse json with
    | .error .keyError => .ok none
    | result => result

/-- The value of a call that returns one. -/
def answered {ν : Type} (parse : Json → Except PyError (Option ν)) (o : HttpOutcome) : Option ν :=
  match guarded parse o with
  | .ok value => value
  | .error _ => none

/-! ## The caches -/

/-- `settings.google_maps_api_key` and Python's functions on texts. -/
structure MapsEnv (D : Type) where
  googleMapsApiKey : String
  lower : String → String
  digest : String → D

variable {D : Type}

/-- `_hash` (line 57). -/
def MapsEnv.hash (env : MapsEnv D) (value : String) : D := env.digest (env.lower (strip value))

/-- An origin and a destination. -/
abbrev Trip := String × String

/-- `get_drive_time_seconds` (line 67): `_DRIVE_TIME_TTL` is six hours. -/
def getDriveTimeSeconds (env : MapsEnv D) : Source Trip (D × D) HttpOutcome ℤ where
  accepts trip := trip.1 ≠ "" && trip.2 ≠ ""
  key trip := (env.hash trip.1, env.hash trip.2)
  ttl := minutes 360
  ttl_pos := by decide
  enabled := env.googleMapsApiKey ≠ ""
  parse := answered parseDistanceMatrix

/-- `geocode` (line 202): `_GEOCODE_TTL` is thirty days. -/
def geocode (env : MapsEnv D) : Source String D HttpOutcome (ℚ × ℚ) where
  accepts address := address ≠ ""
  key address := env.hash address
  ttl := days 30
  ttl_pos := by decide
  enabled := env.googleMapsApiKey ≠ ""
  parse := answered parseGeocode

variable [DecidableEq D]

abbrev TripOp := ReadThrough.Op Trip HttpOutcome

abbrev PlaceOp := ReadThrough.Op String HttpOutcome

/-- The drive-time table and its transactions after a run. -/
def driveTimes (env : MapsEnv D) (now : ℤ) (ops : List TripOp) :
    World Trip (D × D) HttpOutcome ℤ :=
  run (ReadThrough.step (getDriveTimeSeconds env)) (World.start now) ops

/-- The geocode table and its transactions after a run. -/
def coordinates (env : MapsEnv D) (now : ℤ) (ops : List PlaceOp) :
    World String D HttpOutcome (ℚ × ℚ) :=
  run (ReadThrough.step (geocode env)) (World.start now) ops

/-! ## What callers get -/

/-- The value was parsed from Google's answer to a call for the same addresses, made by this
    call itself or started less than `ttl` before it returned. -/
def AnsweredWithin {ρ κ ν : Type} (key : ρ → κ) (parse : Json → Except PyError (Option ν))
    (ttl : ℤ) (answers : List (Answer ρ HttpOutcome)) (x : Returned ρ ν) : Prop :=
  ∃ a ∈ answers, ∃ json, a.reply = .body json ∧ parse json = .ok (some x.value) ∧
    key a.call.request = key x.request ∧
    a.call.startedAt ≤ a.answeredAt ∧ a.answeredAt ≤ x.returnedAt ∧
    (x.returnedAt < a.call.startedAt + ttl ∨
      (a.call.request = x.request ∧ a.answeredAt = x.returnedAt))

/-- A value comes from the body of an answer. -/
theorem answered_eq_some {ν : Type} {parse : Json → Except PyError (Option ν)} {o : HttpOutcome}
    {v : ν} (h : answered parse o = some v) :
    ∃ json, o = .body json ∧ parse json = .ok (some v) := by
  cases o with
  | httpError => cases h
  | notJson => cases h
  | body json =>
    refine ⟨json, rfl, ?_⟩
    simp only [answered, guarded] at h
    cases hp : parse json with
    | ok value =>
      rw [hp] at h
      exact congrArg _ h
    | error e =>
      rw [hp] at h
      cases e <;> cases h

theorem answeredWithin_of_fresh {ρ κ ν : Type} {s : Source ρ κ HttpOutcome ν}
    {parse : Json → Except PyError (Option ν)} (hs : s.parse = answered parse)
    {w : World ρ κ HttpOutcome ν} {x : Returned ρ ν} {a : Answer ρ HttpOutcome}
    (h : Fresh s w x a) : AnsweredWithin s.key parse s.ttl w.answers x := by
  have hvalue : answered parse a.reply = some x.value := hs ▸ h.value
  obtain ⟨json, hreply, hparse⟩ := answered_eq_some hvalue
  exact ⟨a, h.mem, json, hreply, hparse, h.key, h.ordered, h.before, h.recent⟩

/-- Whatever the transactions interleave, a drive time is what Google answered for a trip
    between the same addresses in the last six hours, and coordinates are what it answered
    for the same address in the last thirty days. -/
theorem maps_answers_fresh (env : MapsEnv D) (now : ℤ) (trips : List TripOp)
    (places : List PlaceOp) :
    (∀ x ∈ (driveTimes env now trips).returned,
      AnsweredWithin (fun trip : Trip => (env.hash trip.1, env.hash trip.2)) parseDistanceMatrix
        (minutes 360) (driveTimes env now trips).answers x) ∧
    ∀ x ∈ (coordinates env now places).returned,
      AnsweredWithin env.hash parseGeocode (days 30) (coordinates env now places).answers x := by
  constructor
  · intro x hx
    obtain ⟨a, ha⟩ := returned_fresh now trips x hx
    exact answeredWithin_of_fresh rfl ha
  · intro x hx
    obtain ⟨a, ha⟩ := returned_fresh now places x hx
    exact answeredWithin_of_fresh rfl ha

/-- `google_maps_api_key` is set; the digest keeps the text. -/
def exampleEnv : MapsEnv String where
  googleMapsApiKey := "key"
  lower := id
  digest := id

/-- Google's answer to a trip of half an hour. -/
def halfAnHour : HttpOutcome :=
  .body (.obj [("status", .str "OK"), ("rows", .arr [.obj [("elements", .arr [.obj
    [("status", .str "OK"), ("duration", .obj [("value", .int 1800)])]])]])])

/-- Three requests for one trip, the second within six hours of the first. -/
def threeTrips : List (Visit Trip HttpOutcome) :=
  [⟨0, ("a", "b"), halfAnHour, true, 3600000000⟩, ⟨1, ("a", "b"), halfAnHour, true, 18000000000⟩,
    ⟨2, ("a", "b"), halfAnHour, true, 0⟩]

/-- The second request gets the first one's answer from the table, an hour later. -/
theorem threeTrips_fresh :
    AnsweredWithin (fun trip : Trip => (exampleEnv.hash trip.1, exampleEnv.hash trip.2))
      parseDistanceMatrix (minutes 360)
      (driveTimes exampleEnv 0 (threeTrips.flatMap Visit.ops)).answers
      ⟨("a", "b"), 3600000000, 1800⟩ :=
  (maps_answers_fresh exampleEnv 0 (threeTrips.flatMap Visit.ops) []).1 _ (by decide)

/-! ## What Google is asked -/

/-- Any two stored answers for the same addresses started a lifetime apart. -/
def StoredApart {κ ν : Type} (ttl : ℤ) (stored : List (κ × Entry ν)) : Prop :=
  stored.Pairwise fun newer older =>
    newer.1 = older.1 → older.2.expiresAt + ttl ≤ newer.2.expiresAt

/-- While no two transactions fetch the same addresses at the same time, Google's stored
    answers for them are six hours, or thirty days, apart. -/
theorem maps_answers_spaced (env : MapsEnv D) (now : ℤ) {trips : List TripOp}
    {places : List PlaceOp}
    (ht : AllSteps (ReadThrough.step (getDriveTimeSeconds env)) (Alone (getDriveTimeSeconds env))
      (World.start now) trips)
    (hp : AllSteps (ReadThrough.step (geocode env)) (Alone (geocode env)) (World.start now)
      places) :
    StoredApart (minutes 360) (driveTimes env now trips).stored ∧
    StoredApart (days 30) (coordinates env now places).stored :=
  ⟨stored_spaced now ht, stored_spaced now hp⟩

/-- Google is asked for the first and the third. -/
theorem threeTrips_spaced :
    ((driveTimes exampleEnv 0 (threeTrips.flatMap Visit.ops)).answers.length = 2 ∧
      (driveTimes exampleEnv 0 (threeTrips.flatMap Visit.ops)).stored.length = 2) ∧
    StoredApart (minutes 360) (driveTimes exampleEnv 0 (threeTrips.flatMap Visit.ops)).stored ∧
    StoredApart (days 30) (coordinates exampleEnv 0 []).stored :=
  ⟨⟨by decide, by decide⟩,
    maps_answers_spaced exampleEnv 0 (alone_visits (fun _ => rfl) threeTrips) trivial⟩

end TempleConsign.Maps
