import GaiaHub.Server

/-!
# Listing

`handleListFiles` returns the driver's page, and under archival scopes hides its historical
entries (`filterHistorical`). `listingPage` states the listing rule of §4.6: the entries that are
not historical, in order, followed by one `null` exactly when the page was non-empty, all of it
historical, and its cursor truthy. `filterHistorical_eq_listingPage` shows the code computes it,
and `handleListFiles_page` that the handler returns it for the driver's page.

Truthiness is JavaScript's: a cursor that is the empty string is present but falsy, and such a
page gets no sentinel (`handleListFiles_empty_cursor`).
-/

namespace GaiaHub

/-- The listing rule of §4.6 for a driver page `r`: the whole page without archival scopes; with
them, the entries that are not historical, in order, then one `null` exactly when the page was
non-empty, all of it historical, and its cursor a non-empty string. -/
def listingPage {α : Type} (name : α → JsString) (isArchival : Bool) (r : ListFilesResult α) :
    List (Option α) :=
  if isArchival then
    (r.entries.filter fun e => !isHistoricalFile (name e)).map some ++
      if !r.entries.isEmpty && r.entries.all (fun e => isHistoricalFile (name e)) &&
          r.page.any truthy then [none]
      else []
  else r.entries.map some

theorem filterHistorical_eq_listingPage {α : Type} (name : α → JsString) (isArchival : Bool)
    (r : ListFilesResult α) :
    filterHistorical name isArchival r = ⟨listingPage name isArchival r, r.page⟩ := by
  unfold filterHistorical listingPage
  cases isArchival with
  | false => simp
  | true =>
      cases hE : r.entries with
      | nil => simp
      | cons e es =>
          have hfilter : ((e :: es).filter fun x => !isHistoricalFile (name x)).length = 0 ↔
              (e :: es).all (fun x => isHistoricalFile (name x)) = true := by
            simp [List.filter_eq_nil_iff]
          cases hp : r.page with
          | none => simp
          | some c =>
              cases c with
              | nil => simp [hfilter, truthy]
              | cons ch cs => simp only [hfilter]; simp [truthy]; split_ifs <;> simp

namespace HubServer

variable (srv : HubServer) {cache : AuthTimestampCache} {st : Store} {address : JsString}
  {page : Option JsString}

/-- With a token that passes `validate` at the principal's clock, `handleListFiles` returns the
driver's page under the listing rule: unchanged without archival scopes, and otherwise its
entries that are not historical, in order, followed by a `null` exactly when the page was
non-empty, all of it historical, and its cursor a non-empty string. -/
theorem handleListFiles_page {token : Token} {ts : Nat}
    (hts : (cache.getAuthTimestamp srv.driver st address).2 = .ok ts)
    (hv : srv.validate address (some token) (some ts) = .ok ()) :
    (∀ r, srv.driver.listFiles st ⟨address, page⟩ = .ok r →
      srv.handleListFiles cache st address page false (some token) =
        .ok (.names ⟨listingPage id (isArchivalRestricted (groupScopes token.scopes)) r,
          r.page⟩)) ∧
    (∀ r, srv.driver.listFilesStat st ⟨address, page⟩ = .ok r →
      srv.handleListFiles cache st address page true (some token) =
        .ok (.stats ⟨listingPage ListFileStatResult.name
          (isArchivalRestricted (groupScopes token.scopes)) r, r.page⟩)) := by
  constructor <;> intro r hr <;>
    simp [handleListFiles, getAuthenticationScopes, hts, hv, hr, filterHistorical_eq_listingPage]

end HubServer

/-- The page of a listing of `keys` present under `args.pathPrefix`, `pageSize` at a time: it
starts at the key the cursor names, and its cursor is the key the next page starts with. -/
def listKeys (st : Store) (keys : List JsString) (pageSize : Nat) (args : PerformListFilesArgs) :
    ListFilesResult JsString :=
  let present := keys.filter fun k => (st args.pathPrefix k).isSome
  let rest := match args.page with
    | some cursor => present.dropWhile fun k => k != cursor
    | none => present
  ⟨rest.take pageSize, (rest.drop pageSize).head?⟩

/-- The store driver, listing the keys of `keys` that it holds, in the order given. -/
def listingDriver (readURL : JsString) (keys : List JsString) (pageSize : Nat) : DriverModel :=
  { storeDriver readURL with
    listFiles := fun st args => .ok (listKeys st keys pageSize args)
    listFilesStat := fun st args =>
      let r := listKeys st keys pageSize args
      .ok ⟨r.entries.map fun k =>
        ⟨k, ((st args.pathPrefix k).map fun o => o.data.length).getD 0, [], 0⟩, r.page⟩ }

def demoListingKeys : List JsString :=
  ["foo/.history.1700000000000.mAB6Yps3V3.bar".toList, "foo/bar".toList]

def demoListingStore : Store :=
  demoStore.insert demoAddress "foo/.history.1700000000000.mAB6Yps3V3.bar".toList
    ⟨[104], "text/plain".toList⟩

def demoListingHub : HubServer :=
  { demoHub with driver := listingDriver "http://localhost:4001/".toList demoListingKeys 1 }

theorem handleListFiles_page_history :
    (demoCache.getAuthTimestamp demoListingHub.driver demoListingStore demoAddress).2 = .ok 0 ∧
      demoListingHub.validate demoAddress
        (some (demoToken 0 [⟨.putFileArchivalPrefix, "foo/".toList⟩])) (some 0) = .ok () ∧
      demoListingHub.handleListFiles demoCache demoListingStore demoAddress none false
          (some (demoToken 0 [⟨.putFileArchivalPrefix, "foo/".toList⟩])) =
        .ok (.names ⟨listingPage id true
          ⟨["foo/.history.1700000000000.mAB6Yps3V3.bar".toList], some "foo/bar".toList⟩,
          some "foo/bar".toList⟩) ∧
      listingPage id true
          ⟨["foo/.history.1700000000000.mAB6Yps3V3.bar".toList], some "foo/bar".toList⟩ =
        [none] :=
  have hts : (demoCache.getAuthTimestamp demoListingHub.driver demoListingStore
      demoAddress).2 = .ok 0 := by decide
  have hv : demoListingHub.validate demoAddress
      (some (demoToken 0 [⟨.putFileArchivalPrefix, "foo/".toList⟩])) (some 0) = .ok () := by
    decide
  ⟨hts, hv, (demoListingHub.handleListFiles_page hts hv).1 _ (by decide), by decide⟩

/-- A page of one historical entry whose cursor is the empty string: the cursor is present but
falsy, so the filtered page comes back empty with no sentinel. -/
theorem handleListFiles_empty_cursor :
    ({ demoHub with
        driver := { demoHub.driver with
          listFiles := fun _ _ =>
            .ok ⟨["foo/.history.1700000000000.mAB6Yps3V3.bar".toList], some []⟩ } } : HubServer
      ).handleListFiles demoCache Store.empty demoAddress none false
        (some (demoToken 0 [⟨.putFileArchivalPrefix, "foo/".toList⟩])) =
      .ok (.names ⟨[], some []⟩) := by
  decide

end GaiaHub
