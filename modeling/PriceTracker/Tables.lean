import PriceTracker.Feed
import PriceTracker.Screens

/-!
# The table of a page

A table remembers how many rows the page had at the last `reloadData`. The callbacks that
replace the last array of a page only queue a reload, so that until it runs the table may still
ask for a row of the old count. As long as the list behind the rows does not lose any, no array
gets shorter and all rows that a table may ask for stay in the range of the arrays.
-/

namespace PriceTracker

/-! ## Rows -/

namespace Page

/-- `tableView(_:numberOfRowsInSection:)` of the pages that show items. -/
def numberOfRows : Page → Nat
  | .friendFeed vc => vc.numberOfRows
  | .profile vc => vc.numberOfRows
  | .user vc => vc.numberOfRows
  | .userCopy vc => vc.numberOfRows
  | _ => 0

/-- `tableView(_:cellForRowAt:)`: the labels of the cell; `none` means an index out of range. -/
def cellForRowAt (row : Nat) : Page → Option (List String)
  | .friendFeed vc => (vc.cellForRowAt row).map fun cell => [cell.itemLabel, cell.usernameLabel]
  | .profile vc => (vc.cellForRowAt row).map fun label => [label]
  | .user vc => (vc.cellForRowAt row).map fun label => [label]
  | .userCopy vc => (vc.cellForRowAt row).map fun label => [label]
  | _ => none

/-- `tableView(_:didSelectRowAt:)`. -/
def didSelectRowAt (row : Nat) : Page → Option Page
  | .friendFeed vc => (vc.didSelectRowAt row).map .friendFeed
  | .profile vc => (vc.didSelectRowAt row).map .profile
  | .user vc => (vc.didSelectRowAt row).map .user
  | .userCopy vc => (vc.didSelectRowAt row).map .userCopy
  | _ => none

/-- The rows that are in the range of all arrays of the table. -/
def commonRows : Page → Nat
  | .friendFeed vc =>
      min vc.recentItemNames.length (min vc.friendNames.length vc.friendList.length)
  | .profile vc => vc.ItemList.length
  | .user vc => vc.items.length
  | .userCopy vc => vc.items.length
  | _ => 0

theorem inRange_iff {page : Page} {row : Nat} :
    (page.cellForRowAt row).isSome ∧ (page.didSelectRowAt row).isSome ↔ row < page.commonRows := by
  cases page <;> simp only [cellForRowAt, didSelectRowAt, commonRows, Option.isSome_map,
    FriendFeedVC.didSelectRowAt, ProfileVC.cellForRowAt, ProfileVC.didSelectRowAt,
    UserVC.cellForRowAt, UserVC.didSelectRowAt, UserCopyVC.cellForRowAt, UserCopyVC.didSelectRowAt,
    isSome_getElem?, Option.isSome_none, Bool.false_eq_true, and_self,
    Nat.not_lt_zero]
  case friendFeed vc =>
    have isCell : (vc.cellForRowAt row).isSome ↔
        row < vc.recentItemNames.length ∧ row < vc.friendNames.length := by
      by_cases inItems : row < vc.recentItemNames.length <;>
        by_cases inNames : row < vc.friendNames.length <;>
        simp [FriendFeedVC.cellForRowAt, inItems, inNames]
    rw [isCell]
    omega

end Page

/-- The callbacks that queue a reload when their node exists. -/
def Callback.queuesReload : Callback → Bool
  | .getItems | .setItems | .getRecentItemNames => true
  | _ => false

/-- A page with its table, the reads that are delivered in the order of the requests, and the app
with the shared database. -/
structure Table where
  system : System
  page : Page
  pending : List Callback
  /-- The rows of the page at the last `reloadData`. -/
  rowCount : Nat := 0
  /-- The reloads that are queued and have not run. -/
  reloads : Nat := 0

namespace Table

inductive Event where
  | viewWillAppear
  /-- The oldest requested read is delivered. -/
  | deliver (snapshot : Collection)
  | reloadData
  | cellForRowAt (row : Nat)
  | didSelectRowAt (row : Nat)
  /-- Something else happens in the app. -/
  | elsewhere (event : PriceTracker.Event)

def opened (system : System) (screen : Screen) : Table :=
  { system, page := screen.viewDidLoad.1, pending := screen.viewDidLoad.2 }

def step (userID : String) (table : Table) : Event → Option Table
  | .viewWillAppear =>
      some { table with pending := table.pending ++ table.page.viewWillAppear }
  | .deliver snapshot =>
      match table.pending with
      | [] => none
      | callback :: pending =>
          if Store.IsSnapshot snapshot (table.system.db callback.node) then
            (table.page.callback userID snapshot callback).map fun page =>
              { table with page, pending, reloads := table.reloads +
                  if callback.queuesReload && snapshotExists snapshot then 1 else 0 }
          else none
  | .reloadData =>
      if 0 < table.reloads then
        some { table with rowCount := table.page.numberOfRows, reloads := table.reloads - 1 }
      else none
  | .cellForRowAt row =>
      if row < table.rowCount then (table.page.cellForRowAt row).map fun _ => table else none
  | .didSelectRowAt row =>
      if row < table.rowCount then
        (table.page.didSelectRowAt row).map fun page => { table with page }
      else none
  | .elsewhere event => (table.system.step event).map fun system => { table with system }

/-- A cell request or a tap for any row of the table is in the range of the arrays. -/
def RowsInRange (table : Table) : Prop :=
  ∀ row < table.rowCount,
    (table.page.cellForRowAt row).isSome ∧ (table.page.didSelectRowAt row).isSome

theorem rowsInRange_iff {table : Table} :
    table.RowsInRange ↔ table.rowCount ≤ table.page.commonRows := by
  simp only [RowsInRange, Page.inRange_iff]
  constructor
  · intro inRange
    by_contra beyond
    exact absurd (inRange table.page.commonRows (by omega)) (Nat.lt_irrefl _)
  · intro enough row inside
    omega

end Table

/-! ## The lists behind the rows -/

/-- The callbacks that take the list of ids of a table. -/
def Callback.takesList : Callback → Bool
  | .getUserItemID | .getUserInfo | .getFriendIDs => true
  | _ => false

namespace Screen

/-- The lists that a read of the ids may find: the item lists of the users with the email on a search
page, one stored list on the other pages. -/
def storedLists (db : Database) (userID : String) : Screen → List (List String)
  | .friendFeed => (friendListOf db userID).toList
  | .profile => (itemListOf db userID).toList
  | .user uid => (itemListOf db uid).toList
  | .userCopy email =>
      ((db firUsersNode).keys.filter fun uid => emailOf db uid = some email).filterMap (itemListOf db)
  | _ => []

/-- The rows of a list: the friends with a record in the feed, the stored items on other pages. -/
def rowsOf (db : Database) (list : List String) : Screen → Nat
  | .friendFeed => (Store.restrict list (db firUsersNode)).length
  | _ => (Store.restrict list (db firItemsNode)).length

theorem rowsOf_nil (db : Database) (screen : Screen) : screen.rowsOf db [] = 0 := by
  cases screen <;> simp [rowsOf, Store.restrict]

end Screen

namespace Page

/-- The list of ids that the rows come from. -/
def idList : Page → List String
  | .friendFeed vc => vc.friendList
  | page => page.wantedItems

/-- The items that the rows name. -/
def rowItems : Page → List String
  | .friendFeed vc => vc.recentItemList
  | page => page.wantedItems

/-- The names in the feed come with an item each, and from listed friends with a record. -/
def NamesListed (db : Database) : Page → Prop
  | .friendFeed vc => vc.recentItemList.length = vc.friendNames.length ∧
      vc.friendNames.length ≤ (Store.restrict vc.friendList (db firUsersNode)).length
  | _ => True

/-- The arrays of a page fit together, and each row has an item that is stored. -/
structure Fits (db : Database) (page : Page) : Prop where
  rows : page.numberOfRows ≤ (Store.restrict page.rowItems (db firItemsNode)).length
  names : page.NamesListed db

section Fitting

variable {db : Database} {userID : String} {page next : Page} {callback : Callback}
  {snapshot : Collection}

theorem fits_viewDidLoad (db : Database) (screen : Screen) : screen.viewDidLoad.1.Fits db := by
  constructor
  · cases screen <;> exact Nat.zero_le _
  · cases screen with
    | friendFeed => exact ⟨rfl, Nat.zero_le _⟩
    | _ => trivial

theorem Fits.mono {later : Database} (fits : page.Fits db)
    (users : (db firUsersNode).keys ⊆ (later firUsersNode).keys)
    (items : (db firItemsNode).keys ⊆ (later firItemsNode).keys) : page.Fits later where
  rows := fits.rows.trans (Store.length_restrict_le_of_keys_subset items)
  names := by
    cases page with
    | friendFeed vc =>
        exact fits.names.imp_right fun listed =>
          listed.trans (Store.length_restrict_le_of_keys_subset users)
    | _ => trivial

/-- All the rows of a page whose arrays fit are in their range. -/
theorem Fits.numberOfRows_le (fits : page.Fits db) : page.numberOfRows ≤ page.commonRows := by
  cases page with
  | friendFeed vc =>
      have rows : vc.recentItemNames.length ≤ _ := fits.rows
      rcases fits.names with ⟨sameLength, listed⟩
      have named : vc.recentItemNames.length ≤ vc.friendNames.length :=
        sameLength ▸ rows.trans Store.length_restrict_le
      have inList : vc.friendNames.length ≤ vc.friendList.length :=
        listed.trans Store.length_restrict_le
      simp only [numberOfRows, FriendFeedVC.numberOfRows, commonRows]
      omega
  | addEntry vc | peopleSearch vc | profile vc | user vc | userCopy vc => exact Nat.le_refl _

/-- A read of the items shows all the wanted ones that are stored. -/
theorem rows_readItems {wanted : List String} {current shown : List Item}
    (taken : Store.IsSnapshot snapshot (db firItemsNode))
    (fits : current.length ≤ (Store.restrict wanted (db firItemsNode)).length)
    (read : readItems wanted current snapshot = some shown) :
    current.length ≤ shown.length ∧
      shown.length ≤ (Store.restrict wanted (db firItemsNode)).length := by
  unfold readItems at read
  split_ifs at read
  · have lengths := congrArg List.length (Loop.collect_eq_some_iff.mp read)
    simp only [List.length_map] at lengths
    rw [← lengths, ← taken.length_restrict]
    exact ⟨taken.length_restrict ▸ fits, Nat.le_refl _⟩
  · simp only [Option.some.injEq] at read
    subst read
    exact ⟨Nat.le_refl _, fits⟩

/-- The names of the feed are read anew from the listed friends: no more than there are records,
and as many as there are stored latest items. -/
theorem fits_feedNames {vc after : FriendFeedVC}
    (disjoint : ∀ first second itemIds otherIds, first ≠ second →
      itemListOf db first = some itemIds → itemListOf db second = some otherIds →
        itemIds.Disjoint otherIds)
    (stored : ∀ uid itemIds, itemListOf db uid = some itemIds → itemIds ⊆ (db firItemsNode).keys)
    (taken : Store.IsSnapshot snapshot (db firUsersNode)) (fits : (Page.friendFeed vc).Fits db)
    (read : vc.getFriendNamesAndRecentItemIDs snapshot = some after) :
    (Page.friendFeed after).Fits db ∧ after.recentItemNames = vc.recentItemNames := by
  rcases FriendFeedVC.getFriendNamesAndRecentItemIDs_cases read with rfl | ⟨present, _⟩
  · exact ⟨fits, rfl⟩
  · rcases FriendFeedVC.columns_of_getFriendNamesAndRecentItemIDs taken present read with
      ⟨sameFriends, sameRows, names, latest⟩
    have namesLength := congrArg List.length names
    have itemsLength := congrArg List.length latest
    rw [List.length_map, List.length_map, FriendFeedVC.listedFriends, List.length_map,
      taken.length_restrict] at namesLength itemsLength
    have nodup := nodup_of_map_latestItem disjoint Store.nodup_keys_restrict latest
    have inItems : after.recentItemList ⊆ (db firItemsNode).keys := by
      intro itemId itemId_mem
      have isLatest : some itemId ∈ after.recentItemList.map some := List.mem_map_of_mem itemId_mem
      rw [latest] at isLatest
      rcases List.mem_map.mp isLatest with ⟨uid, _, ofUser⟩
      rcases exists_itemListOf_of_latestItem ofUser with ⟨itemIds, hasItems, inList⟩
      exact stored uid itemIds hasItems inList
    have allStored := (Store.keys_restrict_perm nodup inItems).length_eq
    rw [List.length_map] at allStored
    rcases fits.names with ⟨sameLength, listed⟩
    have rows : vc.recentItemNames.length ≤ vc.recentItemList.length :=
      fits.rows.trans Store.length_restrict_le
    refine ⟨⟨?_, ?_⟩, sameRows⟩
    · simp only [numberOfRows, FriendFeedVC.numberOfRows, rowItems, allStored, sameRows]
      omega
    · rw [NamesListed, sameFriends]
      omega

/-- A callback that gets a list with no fewer rows leaves arrays that fit, and no fewer rows. -/
theorem fits_callback
    (disjoint : ∀ first second itemIds otherIds, first ≠ second →
      itemListOf db first = some itemIds → itemListOf db second = some otherIds →
        itemIds.Disjoint otherIds)
    (stored : ∀ uid itemIds, itemListOf db uid = some itemIds → itemIds ⊆ (db firItemsNode).keys)
    (taken : Store.IsSnapshot snapshot (db callback.node))
    (ran : page.callback userID snapshot callback = some next) (fits : page.Fits db)
    (kept : page.screen.rowsOf db page.idList ≤ page.screen.rowsOf db next.idList) :
    next.Fits db ∧ page.numberOfRows ≤ next.numberOfRows := by
  cases callback_effect ran with
  | feedFriends own =>
      exact ⟨⟨fits.rows, fits.names.imp_right fun listed => listed.trans kept⟩, Nat.le_refl _⟩
  | feedNames read =>
      rcases fits_feedNames disjoint stored taken fits read with ⟨after, sameRows⟩
      exact ⟨after, (congrArg List.length sameRows).ge⟩
  | @feedItems vc after read =>
      have itemsTaken : Store.IsSnapshot snapshot (db firItemsNode) := taken
      rcases FriendFeedVC.getRecentItemNames_cases read with rfl | ⟨_, names, readNames, rfl⟩
      · exact ⟨fits, Nat.le_refl _⟩
      · have lengths := congrArg List.length readNames
        rw [List.length_map, List.length_map, itemsTaken.length_restrict] at lengths
        exact ⟨⟨lengths.ge, fits.names⟩, fits.rows.trans lengths.le⟩
  | profileItems read | userItems read | userCopyItems read =>
      rcases rows_readItems taken fits.rows read with ⟨noFewer, enough⟩
      exact ⟨⟨enough, trivial⟩, noFewer⟩
  | profileIds own =>
      exact ⟨⟨fits.rows.trans kept, trivial⟩, Nat.le_refl _⟩
  | userInfo read =>
      have sameRows := congrArg List.length (UserVC.items_getUserInfo read)
      exact ⟨⟨sameRows.le.trans (fits.rows.trans kept), trivial⟩, sameRows.ge⟩
  | userCopyInfo read =>
      have sameRows := congrArg List.length (UserCopyVC.items_getUserInfo read)
      exact ⟨⟨sameRows.le.trans (fits.rows.trans kept), trivial⟩, sameRows.ge⟩
  | ignored isForeign => exact ⟨fits, Nat.le_refl _⟩
  | entryIds own | searchEmails read | userCopyFriends own =>
      exact ⟨⟨fits.rows, trivial⟩, Nat.le_refl _⟩

theorem mem_storedLists {uid : String} {itemIds : List String} (isOf : page.IsOf db userID uid)
    (hasItems : itemListOf db uid = some itemIds) :
    itemIds ∈ page.screen.storedLists db userID := by
  cases page with
  | userCopy vc =>
      rcases Option.bind_eq_some_iff.mp hasItems with ⟨user, stored, _⟩
      have isKey : uid ∈ (db firUsersNode).keys := by
        rw [Store.mem_keys_iff]
        exact Option.isSome_of_mem stored
      have hasEmail : emailOf db uid = some vc.userEmail := isOf
      refine List.mem_filterMap.mpr ⟨uid, List.mem_filter.mpr ⟨isKey, ?_⟩, hasItems⟩
      exact decide_eq_true hasEmail
  | profile vc | user vc =>
      subst isOf
      simp [screen, Screen.storedLists, hasItems]
  | addEntry vc | friendFeed vc | peopleSearch vc => exact absurd isOf id

/-- A page keeps its list of ids, or takes one that is stored. -/
theorem idList_callback (taken : Store.IsSnapshot snapshot (db callback.node))
    (ran : page.callback userID snapshot callback = some next) :
    next.idList = page.idList ∨
      (callback.takesList = true ∧ next.idList ∈ page.screen.storedLists db userID) := by
  cases callback_effect ran with
  | feedFriends own =>
      rcases readOwnList_cases own with same | ⟨user, found, hasFriends⟩
      · exact Or.inl same
      · rw [taken.lookup] at found
        have isUser : userRecord db userID = some user := found
        refine Or.inr ⟨rfl, ?_⟩
        simp [idList, screen, Screen.storedLists, friendListOf, isUser, hasFriends]
  | feedNames read => exact Or.inl (FriendFeedVC.friendList_getFriendNamesAndRecentItemIDs read)
  | feedItems read => exact Or.inl (FriendFeedVC.friendList_getRecentItemNames read)
  | profileIds own | userInfo read | userCopyInfo read =>
      rcases wantedItems_callback taken ran with same | ⟨uid, isOf, hasItems⟩
      · exact Or.inl same
      · exact Or.inr ⟨rfl, mem_storedLists isOf hasItems⟩
  | _ => exact Or.inl rfl

theorem rows_didSelectRowAt {row : Nat} (tapped : page.didSelectRowAt row = some next) :
    next.screen = page.screen ∧ next.idList = page.idList ∧
      next.numberOfRows = page.numberOfRows ∧ (page.Fits db → next.Fits db) := by
  cases page <;> simp only [didSelectRowAt, reduceCtorEq, Option.map_eq_some_iff] at tapped
  all_goals
    rcases tapped with ⟨chosen, isChosen, rfl⟩
    rcases Option.map_eq_some_iff.mp isChosen with ⟨_, _, rfl⟩
    exact ⟨rfl, rfl, rfl, fun fits => ⟨fits.rows, fits.names⟩⟩

end Fitting

end Page

namespace Table

/-- The read that is delivered takes the list of ids. -/
def takesList (table : Table) : Event → Bool
  | .deliver _ => table.pending.head?.any Callback.takesList
  | _ => false

/-- A read of the list of ids finds no list with fewer rows than one that such a read of the run has
found before. -/
def ListKept (screen : Screen) (userID : String) (history : List (Table × Event)) (table : Table)
    (event : Event) : Prop :=
  table.takesList event = true → ∀ taken ∈ history, taken.1.takesList taken.2 = true →
    ∀ old ∈ screen.storedLists taken.1.system.db userID,
      ∀ list ∈ screen.storedLists table.system.db userID,
        screen.rowsOf table.system.db old ≤ screen.rowsOf table.system.db list

instance (screen : Screen) (userID : String) (history : List (Table × Event)) (table : Table)
    (event : Event) : Decidable (ListKept screen userID history table event) :=
  inferInstanceAs (Decidable (table.takesList event = true → ∀ taken ∈ history,
    taken.1.takesList taken.2 = true → ∀ old ∈ screen.storedLists taken.1.system.db userID,
      ∀ list ∈ screen.storedLists table.system.db userID,
        screen.rowsOf table.system.db old ≤ screen.rowsOf table.system.db list))

section Steps

variable {screen : Screen} {userID : String} {history : List (Table × Event)} {table next : Table}

theorem step_deliver {snapshot : Collection}
    (stepped : table.step userID (.deliver snapshot) = some next) :
    ∃ callback pending page reloads, table.pending = callback :: pending ∧
      Store.IsSnapshot snapshot (table.system.db callback.node) ∧
      table.page.callback userID snapshot callback = some page ∧
      next = { table with page, pending, reloads } := by
  simp only [step] at stepped
  split at stepped
  · cases stepped
  · next callback pending requested =>
      by_cases taken : Store.IsSnapshot snapshot (table.system.db callback.node)
      · rw [if_pos taken] at stepped
        rcases Option.map_eq_some_iff.mp stepped with ⟨page, ran, rfl⟩
        exact ⟨callback, pending, page, _, requested, taken, ran, rfl⟩
      · rw [if_neg taken] at stepped
        cases stepped

/-- A table of an app that runs, next to a page whose list is one that a read has found. -/
structure RowsKept (screen : Screen) (userID : String) (history : List (Table × Event))
    (table : Table) : Prop where
  reached : ∃ events, Machine.run System.step {} events = some table.system
  isScreen : table.page.screen = screen
  found : table.page.idList = [] ∨ ∃ taken ∈ history, taken.1.takesList taken.2 = true ∧
    table.page.idList ∈ screen.storedLists taken.1.system.db userID
  fits : table.page.Fits table.system.db
  counted : table.rowCount ≤ table.page.numberOfRows

theorem rowsKept_opened {events : List PriceTracker.Event} {system : System}
    (reached : Machine.run System.step {} events = some system) :
    RowsKept screen userID [] (opened system screen) where
  reached := ⟨events, reached⟩
  isScreen := Page.screen_viewDidLoad screen
  found := by
    left
    cases screen <;> rfl
  fits := Page.fits_viewDidLoad system.db screen
  counted := Nat.zero_le _

/-- Steps with the same list, rows and database keep the invariant. -/
theorem RowsKept.concat (rows : RowsKept screen userID history table) (event : Event) :
    RowsKept screen userID (history ++ [(table, event)]) table where
  reached := rows.reached
  isScreen := rows.isScreen
  found := rows.found.imp_right fun ⟨taken, taken_mem, found⟩ =>
    ⟨taken, List.mem_append_left _ taken_mem, found⟩
  fits := rows.fits
  counted := rows.counted

theorem RowsKept.deliver {callback : Callback} {pending : List Callback} {snapshot : Collection}
    {page : Page} (rows : RowsKept screen userID history table)
    (requested : table.pending = callback :: pending)
    (taken : Store.IsSnapshot snapshot (table.system.db callback.node))
    (ran : table.page.callback userID snapshot callback = some page)
    (kept : ListKept screen userID history table (.deliver snapshot)) (reloads : Nat) :
    RowsKept screen userID (history ++ [(table, .deliver snapshot)])
      { table with page, pending, reloads } := by
  rcases rows.reached with ⟨events, reached⟩
  have list := Page.idList_callback taken ran
  have takes : callback.takesList = true → table.takesList (.deliver snapshot) = true := by
    intro isRead
    simp [takesList, requested, isRead]
  have noFewer : table.page.screen.rowsOf table.system.db table.page.idList ≤
      table.page.screen.rowsOf table.system.db page.idList := by
    rcases list with same | ⟨isRead, found⟩
    · rw [same]
    · rcases rows.found with none | ⟨earlier, earlier_mem, wasRead, old⟩
      · rw [none, Screen.rowsOf_nil]
        exact Nat.zero_le _
      · rw [rows.isScreen] at found ⊢
        exact kept (takes isRead) earlier earlier_mem wasRead _ old _ found
  have stored : ∀ uid itemIds, itemListOf table.system.db uid = some itemIds →
      itemIds ⊆ (table.system.db firItemsNode).keys := by
    intro uid itemIds isList itemId itemId_mem
    rw [Store.mem_keys_iff]
    exact (System.listsSupplied_run reached).stored uid itemIds isList itemId itemId_mem
  rcases Page.fits_callback (System.itemLists_disjoint_run reached) stored taken ran rows.fits
    noFewer with ⟨fits, noFewerRows⟩
  refine ⟨⟨events, reached⟩, (Page.screen_callback ran).trans rows.isScreen, ?_, fits,
    rows.counted.trans noFewerRows⟩
  rcases list with same | ⟨isRead, found⟩
  · simp only [same]
    exact (rows.concat _).found
  · rw [rows.isScreen] at found
    exact Or.inr ⟨(table, .deliver snapshot), by simp, takes isRead, found⟩

theorem rowsKept_step {event : Event} (rows : RowsKept screen userID history table)
    (kept : ListKept screen userID history table event)
    (stepped : table.step userID event = some next) :
    RowsKept screen userID (history ++ [(table, event)]) next := by
  have before := rows.concat event
  cases event with
  | viewWillAppear =>
      simp only [step, Option.some.injEq] at stepped
      subst stepped
      exact ⟨before.reached, before.isScreen, before.found, before.fits, before.counted⟩
  | deliver snapshot =>
      rcases step_deliver stepped with ⟨callback, pending, page, reloads, requested, taken, ran, rfl⟩
      exact rows.deliver requested taken ran kept reloads
  | reloadData =>
      simp only [step] at stepped
      split_ifs at stepped
      simp only [Option.some.injEq] at stepped
      subst stepped
      exact ⟨before.reached, before.isScreen, before.found, before.fits, Nat.le_refl _⟩
  | cellForRowAt row =>
      simp only [step] at stepped
      split_ifs at stepped
      rcases Option.map_eq_some_iff.mp stepped with ⟨labels, _, rfl⟩
      exact before
  | didSelectRowAt row =>
      simp only [step] at stepped
      split_ifs at stepped
      rcases Option.map_eq_some_iff.mp stepped with ⟨page, tapped, rfl⟩
      rcases Page.rows_didSelectRowAt tapped with ⟨sameScreen, sameList, sameRows, fits⟩
      refine ⟨before.reached, sameScreen.trans before.isScreen, ?_, fits before.fits, ?_⟩
      · simp only [sameList]
        exact before.found
      · simp only [sameRows]
        exact before.counted
  | elsewhere event =>
      rcases Option.map_eq_some_iff.mp stepped with ⟨system, moved, rfl⟩
      rcases before.reached with ⟨events, reached⟩
      refine ⟨⟨events ++ [event], (Machine.run_concat reached event).trans moved⟩,
        before.isScreen, before.found, before.fits.mono ?_ ?_, before.counted⟩
      · intro uid uid_mem
        rw [Store.mem_keys_iff] at uid_mem ⊢
        exact System.storedUsers_subset_step moved uid_mem
      · intro itemId itemId_mem
        rw [Store.mem_keys_iff] at itemId_mem ⊢
        exact System.storedItems_subset_step moved itemId_mem

/-- In every run of a page with its table, next to any other steps of the app: if no read of the
list of ids finds fewer rows than an earlier one has found, then all rows that the table may ask for
are in the range of the arrays, also between the end of a callback and the reload. -/
theorem rowsInRange_of_listsKept {first : List PriceTracker.Event} {start : System}
    (toStart : Machine.run System.step {} first = some start) {events : List Event}
    (reached : Machine.run (step userID) (opened start screen) events = some table)
    (kept : Machine.EachStep (step userID) (ListKept screen userID) (opened start screen) events) :
    table.RowsInRange := by
  have rows : RowsKept screen userID
      (Machine.trace (step userID) (opened start screen) events) table := by
    refine Machine.invariant_of_eachStep (RowsKept screen userID) (rowsKept_opened toStart) ?_
      reached kept
    intro events table event next _ rows kept stepped
    exact rowsKept_step rows kept stepped
  rw [rowsInRange_iff]
  exact rows.counted.trans rows.fits.numberOfRows_le

end Steps

/-- `ann` follows `bob` from the search page. -/
def followsBob : List PriceTracker.Event :=
  [.viewDidLoad 0 0 "ann" (.userCopy "bob@example.com"), .deliver 0 .getUserInfo System.annAndBob,
    .deliver 0 .getCurrentUserInfo System.annAndBob, .press 0 .follow, .persist 0]

def bobFollowed : System :=
  (Machine.run System.step System.twoSignedUp followsBob).get (by decide)

/-- Deliver the three reads of the feed. -/
def feedReads (db : Database) : List Event :=
  [.deliver (db firUsersNode), .deliver (db firUsersNode), .deliver (db firItemsNode)]

/-- The feed is loaded before and after, and rows are asked for before and after the last reload. -/
def feedGrows : List Event :=
  feedReads System.twoSignedUp.db ++ [.reloadData, .cellForRowAt 0] ++ followsBob.map .elsewhere ++
    [.viewWillAppear] ++ feedReads bobFollowed.db ++
      [.cellForRowAt 0, .reloadData, .cellForRowAt 1, .didSelectRowAt 1]

theorem rowsInRange_feedGrows :
    ((Machine.run (step "ann") (opened System.twoSignedUp .friendFeed) feedGrows).get
      (by decide)).RowsInRange := by
  rcases System.exists_run_of_run_stepNow
    (show Machine.run (System.stepNow Event.isSignUp) {} System.twoSignUps = some System.twoSignedUp
      from (Option.some_get _).symm) with ⟨events, toStart⟩
  exact rowsInRange_of_listsKept toStart (Option.some_get _).symm
    (Machine.eachStep_of_forall_lt (by decide))

/-! ## A list that shrinks -/

/-- `ann` saves a hat on one page. -/
def savesHat : List PriceTracker.Event :=
  [.viewDidLoad 0 0 "ann" .addEntry, .deliver 0 .usersCallback System.annAndBob,
    .press 0 (.save ⟨"Hat", "", "", ""⟩ "hat"), .persist 0, .persist 0]

/-- Then she saves a coat on a page that has not read her list. -/
def savesCoat : List PriceTracker.Event :=
  [.viewDidLoad 1 0 "ann" .addEntry, .press 1 (.save ⟨"Coat", "", "", ""⟩ "coat"), .persist 0,
    .persist 0]

def hatSaved : System :=
  (Machine.run System.step System.twoSignedUp savesHat).get (by decide)

def coatSaved : System :=
  (Machine.run System.step hatSaved savesCoat).get (by decide)

/-- Deliver both reads of the profile. -/
def profileReads (db : Database) : List Event :=
  [.deliver (db firUsersNode), .deliver (db firItemsNode)]

/-- Before the reload that follows, the profile's table still counts the hat and the first item. -/
theorem not_rowsInRange_coatSaved :
    ∃ table, Machine.run (step "ann") (opened System.twoSignedUp .profile)
        (savesHat.map .elsewhere ++ profileReads hatSaved.db ++ [.reloadData] ++
          savesCoat.map .elsewhere ++ [.viewWillAppear] ++ profileReads coatSaved.db) =
        some table ∧
      ¬ RowsInRange table := by
  refine ⟨_, (Option.some_get (by decide)).symm, ?_⟩
  rw [rowsInRange_iff]
  decide

end Table

end PriceTracker
