import TempleConsign.Lifecycle

/-!
# The public catalogue

Model of `src/api/services/listing_service.py`: the catalogue query, the detail
page and the sales rep's edit of a listing, with `soft_delete_customer`
(`src/api/services/admin_customer_service.py`). The catalogue shows the rows of
`public_listings` whose own status is `active`; only `publish_record` and
`patch_listing` write that status.

Results:
* `publicVisibility_iff`: every query shows live listed records, each once,
  exactly when the tables satisfy `ActiveOnMarket`.
* `returns_patchListing`, `softDeleteCustomer_step`: what the two services write.
-/

namespace TempleConsign

open ServiceLib

/-! ## The columns of the catalogue

Columns the catalogue shows and the lifecycle does not write, by the key of their
row. -/

structure ListingDetails where
  askingPrice : Option ℚ := none
  primaryPhotoGcsPath : Option String := none
  soldAt : Option ℤ := none

/-- `categoryName` is the name behind `category_id`, `rep` the first and last
    name of the user behind `assigned_sales_rep_id`. -/
structure RecordDetails where
  customerYear : Option ℤ := none
  customerSerialNumber : Option String := none
  customerRunningStatus : Option String := none
  categoryName : Option String := none
  rep : Option (String × String) := none

structure SubmissionDetails where
  hoursCondition : Option String := none
  serialNumber : Option String := none
  runningStatus : Option String := none
  transportNotes : Option String := none
  listingNotes : Option String := none

structure CustomerDetails where
  deletedAt : Option ℤ := none
  addressState : Option String := none
  businessPhone : Option String := none

structure ListingColumns where
  listing : ℕ → ListingDetails := fun _ => {}
  record : ℕ → RecordDetails := fun _ => {}
  submission : ℕ → SubmissionDetails := fun _ => {}
  customer : ℕ → CustomerDetails := fun _ => {}

/-- The tables of the lifecycle with the columns of the catalogue. -/
structure Market where
  db : Db
  columns : ListingColumns

/-! ## Queries -/

/-- A row of `_base_stmt`. -/
structure ListingRow where
  listingId : ℕ
  listing : PublicListing
  record : EquipmentRecord
  submission : Option (ℕ × AppraisalSubmission)

/-- The rows of `_base_stmt` (line 25) for one listing: the inner join with its
    record, the outer join with the live approved submissions of that record. -/
def Market.rowsOf (m : Market) (listing : ℕ × PublicListing) : List ListingRow :=
  match m.db.records.get? listing.2.recordId with
  | none => []
  | some record =>
    match m.db.submissions.select (isLiveApprovedFor listing.2.recordId) with
    | [] => [⟨listing.1, listing.2, record, none⟩]
    | s :: ss => (s :: ss).map fun s => ⟨listing.1, listing.2, record, some s⟩

/-- `_base_stmt` with the clauses `p` on the listing. -/
def Market.rows (m : Market) (p : ℕ → PublicListing → Bool) : List ListingRow :=
  (m.db.listings.select p).flatMap m.rowsOf

/-- `PublicListingCard` (`src/api/schemas/public_listing.py`). -/
structure PublicListingCard where
  id : ℕ
  listingTitle : String
  askingPrice : Option ℚ
  status : String
  publishedAt : Option ℤ
  make : Option String
  model : Option String
  year : Option ℤ
  categoryName : Option String
  hoursCondition : Option String
  marketabilityRating : Option String
  state : Option String
  primaryPhotoUrl : Option String

/-- `sub.x if sub else y`. -/
def ListingRow.verified {α : Type} (row : ListingRow) (x : ℕ → AppraisalSubmission → Option α)
    (y : Option α) : Option α :=
  match row.submission with
  | some s => x s.1 s.2
  | none => y

/-- `_card_from_row` (line 43). -/
def Market.cardFromRow (m : Market) (row : ListingRow) : PublicListingCard where
  id := row.listingId
  listingTitle := row.listing.listingTitle
  askingPrice := (m.columns.listing row.listingId).askingPrice
  status := row.listing.status
  publishedAt := row.listing.publishedAt
  make := row.verified (fun _ s => s.make) row.record.customerMake
  model := row.verified (fun _ s => s.model) row.record.customerModel
  year := row.verified (fun _ s => s.year) (m.columns.record row.listing.recordId).customerYear
  categoryName := (m.columns.record row.listing.recordId).categoryName
  hoursCondition := row.verified (fun id _ => (m.columns.submission id).hoursCondition) none
  marketabilityRating := row.verified (fun _ s => s.marketabilityRating) none
  state := (m.columns.customer row.record.customerId).addressState
  primaryPhotoUrl := (m.columns.listing row.listingId).primaryPhotoGcsPath

/-- The arguments of `list_public_listings`; it ignores the two hour bounds. -/
structure ListingQuery where
  page : ℕ := 1
  pageSize : ℕ := 24
  category : List String := []
  condition : List String := []
  minPrice : Option ℚ := none
  maxPrice : Option ℚ := none
  state : Option String := none
  minHours : Option String := none
  maxHours : Option String := none
  sort : String := "newest"

/-- The filters of `list_public_listings` (lines 82-91). A comparison with
    `NULL` drops the row. -/
def Market.matches (m : Market) (q : ListingQuery) (row : ListingRow) : Bool :=
  let card := m.cardFromRow row
  (q.category.isEmpty || card.categoryName.any (· ∈ q.category)) &&
  (q.condition.isEmpty || card.hoursCondition.any (· ∈ q.condition)) &&
  q.minPrice.all (fun p => card.askingPrice.any (p ≤ ·)) &&
  q.maxPrice.all (fun p => card.askingPrice.any (· ≤ p)) &&
  (truthy q.state).all (card.state = some ·)

/-- `NULLS LAST` around the order of the values. -/
def nullsLast {α : Type} (le : α → α → Bool) : Option α → Option α → Bool
  | _, none => true
  | none, some _ => false
  | some a, some b => le a b

/-- The `ORDER BY` (lines 97-102). -/
def Market.before (m : Market) (sort : String) (a b : ListingRow) : Bool :=
  let price := fun row : ListingRow => (m.columns.listing row.listingId).askingPrice
  if sort = "price_asc" then nullsLast (fun x y => x ≤ y) (price a) (price b)
  else if sort = "price_desc" then nullsLast (fun x y => y ≤ x) (price a) (price b)
  else nullsLast (fun x y => y ≤ x) a.listing.publishedAt b.listing.publishedAt

def isActive (_ : ℕ) (l : PublicListing) : Bool := l.status = "active"

/-- `list_public_listings` (line 65): a page of cards and the number of rows. -/
def Market.listPublicListings (m : Market) (q : ListingQuery) : List PublicListingCard × ℕ :=
  let found := (m.rows isActive).filter (m.matches q)
  let sorted := found.insertionSort fun a b => m.before q.sort a b = true
  (((sorted.drop ((q.page - 1) * q.pageSize)).take q.pageSize).map m.cardFromRow, found.length)

/-- `PublicListingDetail`. -/
structure PublicListingDetail where
  id : ℕ
  listingTitle : String
  askingPrice : Option ℚ
  publishedAt : Option ℤ
  make : Option String
  model : Option String
  year : Option ℤ
  serialNumber : Option String
  categoryName : Option String
  hoursCondition : Option String
  runningStatus : Option String
  marketabilityRating : Option String
  transportNotes : Option String
  listingNotes : Option String
  state : Option String
  primaryPhotoUrl : Option String
  assignedRepName : Option String
  contactPhone : Option String

/-- `" ".join(p for p in parts if p) or None` (line 127). -/
def repName (rep : Option (String × String)) : Option String :=
  rep.bind fun (first, last) => truthy (some (" ".intercalate ([first, last].filter (· ≠ ""))))

/-- The answer of `get_public_listing_detail` for one row. -/
def Market.detailFromRow (m : Market) (row : ListingRow) : PublicListingDetail :=
  let card := m.cardFromRow row
  let record := m.columns.record row.listing.recordId
  let customer := m.columns.customer row.record.customerId
  { id := row.listingId
    listingTitle := card.listingTitle
    askingPrice := card.askingPrice
    publishedAt := card.publishedAt
    make := card.make
    model := card.model
    year := card.year
    serialNumber := row.verified (fun id _ => (m.columns.submission id).serialNumber)
      record.customerSerialNumber
    categoryName := card.categoryName
    hoursCondition := card.hoursCondition
    runningStatus := row.verified (fun id _ => (m.columns.submission id).runningStatus)
      record.customerRunningStatus
    marketabilityRating := card.marketabilityRating
    transportNotes := row.verified (fun id _ => (m.columns.submission id).transportNotes) none
    listingNotes := row.verified (fun id _ => (m.columns.submission id).listingNotes) none
    state := card.state
    primaryPhotoUrl := card.primaryPhotoUrl
    assignedRepName := repName record.rep
    contactPhone := customer.businessPhone }

/-- `get_public_listing_detail` (line 109): the first row for an active listing. -/
def Market.getPublicListingDetail (m : Market) (listingId : ℕ) : Option PublicListingDetail :=
  (m.rows fun id l => id = listingId && isActive id l).head?.map m.detailFromRow

/-! ## What the queries show -/

/-- The record a listing belongs to. -/
def Market.recordOf (m : Market) (listingId : ℕ) : Option ℕ :=
  (m.db.listings.get? listingId).map (·.recordId)

/-- The record is not deleted and its status is `listed`. -/
def OnMarket (db : Db) (recordId : ℕ) : Prop :=
  ∃ r, db.records.get? recordId = some r ∧ r.deletedAt = none ∧ r.status = .listed

/-- Every listing an answer shows belongs to a record on the market, and no two
    cards of a page to the same record. -/
structure PublicVisibility (m : Market) : Prop where
  listed : ∀ q, ∀ card ∈ (m.listPublicListings q).1,
    ∃ k, m.recordOf card.id = some k ∧ OnMarket m.db k
  once : ∀ q, ((m.listPublicListings q).1.map fun card => m.recordOf card.id).Nodup
  detail : ∀ id d, m.getPublicListingDetail id = some d →
    ∃ k, m.recordOf d.id = some k ∧ OnMarket m.db k

/-- One listing a record (the unique `equipment_record_id`), of an existing
    record (its foreign key). -/
structure ListingRows (db : Db) : Prop where
  unique : db.listings.Pairwise fun a b => a.recordId ≠ b.recordId
  owned : ∀ id l, db.listings.get? id = some l → ∃ r, db.records.get? l.recordId = some r

/-- The outer join of `_base_stmt` does not multiply the rows of the record. -/
def AtMostOneApproved (db : Db) (recordId : ℕ) : Prop :=
  (db.submissions.select (isLiveApprovedFor recordId)).length ≤ 1

/-- Every active listing is for a record on the market that has at most one
    approved submission. -/
def ActiveOnMarket (db : Db) : Prop :=
  ∀ id l, db.listings.get? id = some l → l.status = "active" →
    OnMarket db l.recordId ∧ AtMostOneApproved db l.recordId

variable {m : Market}

theorem mem_rowsOf {e : ℕ × PublicListing} {row : ListingRow} (h : row ∈ m.rowsOf e) :
    row.listingId = e.1 ∧ row.listing = e.2 := by
  unfold Market.rowsOf at h
  split at h
  · cases h
  · split at h
    · rw [List.mem_singleton.mp h]
      exact ⟨rfl, rfl⟩
    · obtain ⟨s, -, rfl⟩ := List.mem_map.mp h
      exact ⟨rfl, rfl⟩

theorem length_rowsOf {e : ℕ × PublicListing} {r : EquipmentRecord}
    (hr : m.db.records.get? e.2.recordId = some r) :
    (m.rowsOf e).length =
      max 1 (m.db.submissions.select (isLiveApprovedFor e.2.recordId)).length := by
  unfold Market.rowsOf
  rw [hr]
  dsimp only
  split
  · next hs => rw [hs]; rfl
  · next s ss hs => rw [hs, List.length_map, List.length_cons]; omega

/-- A row of a query comes from the listing it names. -/
theorem mem_rows {p : ℕ → PublicListing → Bool} {row : ListingRow} (h : row ∈ m.rows p) :
    m.db.listings.get? row.listingId = some row.listing ∧ p row.listingId row.listing = true := by
  obtain ⟨e, he, hrow⟩ := List.mem_flatMap.mp h
  obtain ⟨hid, hl⟩ := mem_rowsOf hrow
  rw [hid, hl]
  exact Store.mem_select.mp he

theorem rowsOf_subset_rows {p : ℕ → PublicListing → Bool} {id : ℕ} {l : PublicListing}
    (hl : m.db.listings.get? id = some l) (hp : p id l = true) {row : ListingRow}
    (h : row ∈ m.rowsOf (id, l)) : row ∈ m.rows p :=
  List.mem_flatMap.mpr ⟨(id, l), Store.mem_select.mpr ⟨hl, hp⟩, h⟩

/-- A listing of an existing record has a row. -/
theorem exists_row (hI : ListingRows m.db) {p : ℕ → PublicListing → Bool} {id : ℕ}
    {l : PublicListing} (hl : m.db.listings.get? id = some l) (hp : p id l = true) :
    ∃ row ∈ m.rows p, row.listingId = id ∧ row.listing = l := by
  obtain ⟨r, hr⟩ := hI.owned id l hl
  have hlen := length_rowsOf (e := (id, l)) hr
  obtain ⟨row, hrow⟩ := List.exists_mem_of_length_pos (l := m.rowsOf (id, l)) (by omega)
  exact ⟨row, rowsOf_subset_rows hl hp hrow, mem_rowsOf hrow⟩

/-- The rows of one listing name its record, so they are as many cards of that
    record. -/
theorem map_recordOf_rowsOf {e : ℕ × PublicListing} :
    ((m.rowsOf e).map fun row => m.recordOf row.listingId) =
      List.replicate (m.rowsOf e).length (m.recordOf e.1) := by
  rw [List.map_eq_replicate_iff]
  intro row hrow
  rw [(mem_rowsOf hrow).1]

/-- The rows of a query name every record once exactly when no listing has two
    rows. -/
theorem rows_once_iff (hI : ListingRows m.db) (p : ℕ → PublicListing → Bool) :
    ((m.rows p).map fun row => m.recordOf row.listingId).Nodup ↔
      ∀ e ∈ m.db.listings.select p, (m.rowsOf e).length ≤ 1 := by
  unfold Market.rows
  rw [List.map_flatMap, List.nodup_flatMap]
  simp only [map_recordOf_rowsOf, List.nodup_replicate]
  constructor
  · exact fun h => h.1
  · intro h
    refine ⟨h, ?_⟩
    have hnd : (m.db.listings.select p).Pairwise fun a b => a.1 ≠ b.1 :=
      List.pairwise_map.mp (Store.select_nodup m.db.listings p)
    refine hnd.imp_of_mem ?_
    intro a b ha hb hab x hxa hxb
    have ha' := (Store.mem_select.mp ha).1
    have hb' := (Store.mem_select.mp hb).1
    have he : m.recordOf a.1 = m.recordOf b.1 :=
      (List.eq_of_mem_replicate hxa).symm.trans (List.eq_of_mem_replicate hxb)
    unfold Market.recordOf at he
    rw [ha', hb'] at he
    exact hI.unique a.1 b.1 a.2 b.2 hab ha' hb' (Option.some.inj he)

theorem recordOf_eq {id : ℕ} {l : PublicListing} (hl : m.db.listings.get? id = some l) :
    m.recordOf id = some l.recordId := by
  unfold Market.recordOf
  rw [hl]
  rfl

/-- The detail page of an active listing shows it. -/
theorem onMarket_of_visible (hI : ListingRows m.db) (h : PublicVisibility m) {id : ℕ}
    {l : PublicListing} (hl : m.db.listings.get? id = some l) (hp : isActive id l = true) :
    OnMarket m.db l.recordId := by
  obtain ⟨row, hrow, hid, -⟩ := exists_row hI (p := fun k l => k = id && isActive k l) hl
    (by simp [hp])
  obtain ⟨row', hhead⟩ : ∃ row', (m.rows fun k l => k = id && isActive k l).head? = some row' :=
    ⟨_, List.head?_eq_some_head (List.ne_nil_of_mem hrow)⟩
  have hrow' := mem_rows (List.mem_of_head? hhead)
  obtain ⟨k, hk, hm⟩ := h.detail id (m.detailFromRow row')
    (by unfold Market.getPublicListingDetail; rw [hhead]; rfl)
  have hid' : row'.listingId = id := by
    have hboth := hrow'.2
    simp only [Bool.and_eq_true, decide_eq_true_eq] at hboth
    exact hboth.1
  have hsame : some k = some l.recordId := by
    rw [← hk, ← recordOf_eq hl]
    exact congrArg m.recordOf hid'
  cases hsame
  exact hm

/-- One page that holds every active row shows each record once. -/
theorem atMostOne_of_visible (hI : ListingRows m.db) (h : PublicVisibility m) {id : ℕ}
    {l : PublicListing} (hl : m.db.listings.get? id = some l) (hp : isActive id l = true) :
    AtMostOneApproved m.db l.recordId := by
  have h1 := h.once { pageSize := (m.rows isActive).length }
  have hall : ∀ row, m.matches { pageSize := (m.rows isActive).length } row = true := by
    intro row
    rfl
  have hfilter : (m.rows isActive).filter (m.matches { pageSize := (m.rows isActive).length }) =
      m.rows isActive := List.filter_eq_self.mpr fun row _ => hall row
  simp only [Market.listPublicListings, hfilter, Nat.sub_self, Nat.zero_mul, List.drop_zero,
    List.map_map] at h1
  rw [List.take_of_length_le (by rw [List.length_insertionSort])] at h1
  have hperm := List.perm_insertionSort
    (fun a b => m.before "newest" a b = true) (m.rows isActive)
  have h2 := (rows_once_iff hI isActive).mp ((hperm.map _).nodup_iff.mp h1)
  obtain ⟨r, hr⟩ := hI.owned id l hl
  have h3 := h2 (id, l) (Store.mem_select.mpr ⟨hl, hp⟩)
  rw [length_rowsOf hr] at h3
  exact le_trans (le_max_right _ _) h3

/-- A row of a query over active listings is of a record on the market. -/
theorem ActiveOnMarket.row (h : ActiveOnMarket m.db) {p : ℕ → PublicListing → Bool}
    (hp : ∀ k l, p k l = true → isActive k l = true) {row : ListingRow} (hmem : row ∈ m.rows p) :
    ∃ k, m.recordOf row.listingId = some k ∧ OnMarket m.db k := by
  obtain ⟨hl, hact⟩ := mem_rows hmem
  exact ⟨row.listing.recordId, recordOf_eq hl, (h _ _ hl (of_decide_eq_true (hp _ _ hact))).1⟩

/-- The active listings name every record once. -/
theorem ActiveOnMarket.once (hI : ListingRows m.db) (h : ActiveOnMarket m.db) :
    ((m.rows isActive).map fun row => m.recordOf row.listingId).Nodup := by
  apply (rows_once_iff hI isActive).mpr
  intro e he
  obtain ⟨hl, hact⟩ := Store.mem_select.mp he
  obtain ⟨r, hr⟩ := hI.owned e.1 e.2 hl
  have hone := (h e.1 e.2 hl (of_decide_eq_true hact)).2
  rw [length_rowsOf hr]
  unfold AtMostOneApproved at hone
  omega

/-- A page is a part of the sorted answer. -/
theorem page_sublist (q : ListingQuery) :
    (((((m.rows isActive).filter (m.matches q)).insertionSort
      fun a b => m.before q.sort a b = true).drop ((q.page - 1) * q.pageSize)).take
        q.pageSize).Sublist (((m.rows isActive).filter (m.matches q)).insertionSort
          fun a b => m.before q.sort a b = true) :=
  (List.take_sublist _ _).trans (List.drop_sublist _ _)

/-- **Every answer of the catalogue shows live listed records, each once, exactly
    when every active listing is for one with at most one approved submission.** -/
theorem publicVisibility_iff (hI : ListingRows m.db) :
    PublicVisibility m ↔ ActiveOnMarket m.db := by
  constructor
  · intro h id l hl hact
    have hp : isActive id l = true := decide_eq_true hact
    exact ⟨onMarket_of_visible hI h hl hp, atMostOne_of_visible hI h hl hp⟩
  · intro h
    constructor
    · intro q card hcard
      obtain ⟨row, hmem, rfl⟩ := List.mem_map.mp hcard
      have hfound := (List.mem_insertionSort _).mp ((page_sublist q).subset hmem)
      exact h.row (fun _ _ hp => hp) (List.mem_of_mem_filter hfound)
    · intro q
      simp only [Market.listPublicListings, List.map_map]
      refine List.Nodup.sublist ((page_sublist q).map _) ?_
      rw [((List.perm_insertionSort _ _).map _).nodup_iff]
      exact List.Nodup.sublist (List.filter_sublist.map _) (h.once hI)
    · intro id d hd
      obtain ⟨row, hhead, rfl⟩ := Option.map_eq_some_iff.mp hd
      refine h.row (fun k l hp => ?_) (List.mem_of_head? hhead)
      rw [Bool.and_eq_true] at hp
      exact hp.2

/-! ## Requests -/

abbrev MarketService (α : Type) := Svc Market Exn α

/-- `ListingPatch` (`src/api/schemas/public_listing.py` line 83). -/
structure ListingPatch where
  askingPrice : Option ℚ := none
  status : Option String := none

/-- The fields `patch_listing` writes on the row (lines 179-189). -/
def patchedListing (patch : ListingPatch) (l : PublicListing) : PublicListing :=
  { l with status := patch.status.getD l.status }

def patchedDetails (now : ℤ) (patch : ListingPatch) (d : ListingDetails) : ListingDetails :=
  { d with
    askingPrice := patch.askingPrice.or d.askingPrice
    soldAt := match patch.status with
      | none => d.soldAt
      | some status => if status = "sold" then some now else none }

/-- `patch_listing` (line 157). -/
def patchListing (now : ℤ) (recordId : ℕ) (patch : ListingPatch) : MarketService Unit := do
  let m ← get
  let found ← Svc.expect (Store.scalarOneOrNone (m.db.listings.select fun _ l =>
      l.recordId = recordId && (m.db.records.get? recordId).isSome)) .multipleResultsFound
  let (id, _) ← Svc.expect found
    (.httpException 404 "Listing not found for this equipment record")
  modify fun m =>
    { db := { m.db with listings := m.db.listings.modify id (patchedListing patch) }
      columns := { m.columns with
        listing := Function.update m.columns.listing id
          (patchedDetails now patch (m.columns.listing id)) } }

/-- The rows that `soft_delete_customer` cascades to. -/
def isLiveRecordOf (customerId : ℕ) (_ : ℕ) (r : EquipmentRecord) : Bool :=
  r.customerId = customerId && r.deletedAt.isNone

/-- `soft_delete_customer` (line 168). -/
def softDeleteCustomer (now : ℤ) (customerId : ℕ) : MarketService Unit := do
  let m ← get
  Svc.require (m.db.customers.get? customerId ≠ none) (.httpException 404 "Customer not found.")
  Svc.onlyIf ((m.columns.customer customerId).deletedAt = none) (modify fun m =>
    { db := { m.db with
        records := m.db.records.modifyWhere (isLiveRecordOf customerId) fun r =>
          { r with deletedAt := some now } }
      columns := { m.columns with
        customer := Function.update m.columns.customer customerId
          { m.columns.customer customerId with deletedAt := some now } } })

/-- A request to the catalogue's system. `columns` stands for the services that
    own the columns of `ListingColumns` and may leave anything there. -/
inductive MarketOp
  | lifecycle (op : Op)
  | columns (columns : ListingColumns)
  | patchListing (now : ℤ) (recordId : ℕ) (patch : ListingPatch)
  | softDeleteCustomer (now : ℤ) (customerId : ℕ)

/-- One request in its transaction. -/
def marketStep (env : Env) (m : Market) : MarketOp → Market
  | .lifecycle op => { m with db := step env m.db op }
  | .columns columns => { m with columns }
  | .patchListing now recordId patch =>
    (Svc.request (fun before _ => before) (patchListing now recordId patch) m).2
  | .softDeleteCustomer now customerId =>
    (Svc.request (fun before _ => before) (softDeleteCustomer now customerId) m).2

def Market.init (users : Store User) (customers : Store Customer) (columns : ListingColumns) :
    Market :=
  ⟨Db.init users customers, columns⟩

/-! ## What the two services write -/

theorem returns_patchListing {now : ℤ} {recordId : ℕ} {patch : ListingPatch} {m' : Market}
    {u : Unit} (h : Svc.Returns (patchListing now recordId patch) m u m') :
    ∃ id l, m.db.listings.get? id = some l ∧ l.recordId = recordId ∧
      m'.db = { m.db with listings := m.db.listings.modify id (patchedListing patch) } := by
  simp only [patchListing, Svc.returns_get_bind, Svc.returns_expect_bind, Svc.returns_modify] at h
  obtain ⟨found, hfound, ⟨id, l⟩, rfl, rfl⟩ := h
  obtain ⟨⟨hl, hp⟩, -⟩ := Store.scalar_select_some_iff.mp hfound
  simp only [Bool.and_eq_true, decide_eq_true_eq] at hp
  exact ⟨id, l, hl, hp.1, rfl⟩

/-- The listing of a record is found and patched. -/
theorem patchListing_returns (hI : ListingRows m.db) (now : ℤ) (patch : ListingPatch) {id : ℕ}
    {l : PublicListing} (hl : m.db.listings.get? id = some l) :
    ∃ m', Svc.Returns (patchListing now l.recordId patch) m () m' ∧
      m'.db = { m.db with listings := m.db.listings.modify id (patchedListing patch) } := by
  obtain ⟨r, hr⟩ := hI.owned id l hl
  have hfound : Store.scalarOneOrNone (m.db.listings.select fun _ l' =>
      l'.recordId = l.recordId && (m.db.records.get? l.recordId).isSome) = some (some (id, l)) := by
    rw [Store.scalar_select_some_iff]
    refine ⟨⟨hl, by simp [hr]⟩, fun j l' hj hp => ?_⟩
    simp only [Bool.and_eq_true, decide_eq_true_eq] at hp
    by_contra hne
    exact hI.unique j id l' l hne hj hl hp.1
  refine ⟨{ db := { m.db with listings := m.db.listings.modify id (patchedListing patch) }
            columns := { m.columns with
              listing := Function.update m.columns.listing id
                (patchedDetails now patch (m.columns.listing id)) } }, ?_, rfl⟩
  simp only [patchListing, Svc.returns_get_bind, Svc.returns_expect_bind, Svc.returns_modify]
  exact ⟨_, hfound, (id, l), rfl, rfl⟩

/-- `soft_delete_customer` marks the live records of a customer that is not
    deleted yet. -/
theorem softDeleteCustomer_step (env : Env) (m : Market) (now : ℤ) (customerId : ℕ) :
    (marketStep env m (.softDeleteCustomer now customerId)).db =
      if m.db.customers.get? customerId ≠ none ∧ (m.columns.customer customerId).deletedAt = none
      then { m.db with
        records := m.db.records.modifyWhere (isLiveRecordOf customerId) fun r =>
          { r with deletedAt := some now } }
      else m.db := by
  simp only [marketStep, softDeleteCustomer, Svc.request, Svc.exec_bind, Svc.exec_get,
    Svc.exec_require, Svc.onlyIf]
  by_cases hc : m.db.customers.get? customerId = none
  · simp [hc]
  · by_cases hd : (m.columns.customer customerId).deletedAt = none
    · simp [hc, hd]
    · simp [hc, hd]

end TempleConsign
