import PriceTracker.Screens

/-!
# What a refresh shows

A refresh reads the ids of a user's items and later, in another read, the items. In between anybody
may write. Since listed items are stored first and never change, the page ends with exactly the
items of the list as it was when the ids were read: a refresh is never torn, and a page that shows
items shows all those of one list that was stored.
-/

namespace PriceTracker

theorem ShowsItems.mono {db later : Database} {itemIds : List String} {shown : List Item}
    (shows : ShowsItems db itemIds shown) (kept : TextsKept db later) :
    ShowsItems later itemIds shown where
  once := shows.once
  listed := shows.listed
  fields := by
    intro item item_mem
    rcases shows.fields item item_mem with ⟨record, stored, read⟩
    exact ⟨record, kept.item _ _ stored, read⟩

namespace Page

variable {db : Database} {page next : Page} {userID uid : String} {snapshot : Collection}
  {callback : Callback}

theorem reads_callback (ran : page.callback userID snapshot callback = some next) :
    next.loads = page.loads ∧ next.shows = page.shows := by
  cases callback_effect ran <;> exact ⟨rfl, rfl⟩

theorem reads_press {button : Button} {writes : List Write}
    (hasButton : page.press userID button = some (next, writes)) :
    next.loads = page.loads ∧ next.shows = page.shows := by
  cases press_effect hasButton <;> exact ⟨rfl, rfl⟩

/-- Only one callback changes the ids that a page shows. -/
theorem wantedItems_of_ne_loads (ran : page.callback userID snapshot callback = some next)
    (other : callback ≠ page.loads) : next.wantedItems = page.wantedItems := by
  cases callback_effect ran with
  | userCopyInfo read | userInfo read | profileIds own => exact absurd rfl other
  | _ => rfl

theorem readItems_of_shows (ran : page.callback userID snapshot callback = some next)
    (isShows : callback = page.shows) :
    readItems page.wantedItems page.shownItems snapshot = some next.shownItems := by
  cases callback_effect ran with
  | userCopyItems read | userItems read | profileItems read => exact read
  | @ignored page callback isForeign =>
      subst isShows
      -- a page that ignores this read shows no items
      cases page <;> simp [callbacks, shows] at isForeign
      all_goals exact readItems_nil
  | _ => simp [shows] at isShows

/-- Reading the ids takes the stored list of a user whose items the page shows. -/
theorem storedList_of_loads (taken : Store.IsSnapshot snapshot (db firUsersNode))
    (isOf : page.IsOf db userID uid) (isUser : (userRecord db uid).isSome)
    (ran : page.callback userID snapshot page.loads = some next) :
    ∃ owner, page.IsOf db userID owner ∧ itemListOf db owner = some next.wantedItems := by
  rcases Option.isSome_iff_exists.mp isUser with ⟨user, stored⟩
  have found : snapshot.lookup uid = some user := taken.lookup uid ▸ stored
  cases page with
  | profile vc =>
      subst isOf
      rcases Option.map_eq_some_iff.mp ran with ⟨after, read, rfl⟩
      rcases Option.map_eq_some_iff.mp read with ⟨IDList, own, rfl⟩
      have present : snapshotExists snapshot = true := by
        simp [snapshotExists, Store.entries_ne_nil_of_lookup found]
      rcases readOwnList_eq_some_iff.mp own with ⟨_, list⟩ | ⟨absent, _⟩
      · rw [found] at list
        exact ⟨userID, rfl, by rw [itemListOf, stored, list]; rfl⟩
      · simp [present] at absent
  | user vc =>
      subst isOf
      rcases Option.map_eq_some_iff.mp ran with ⟨after, read, rfl⟩
      rcases UserVC.getUserInfo_of_lookup found read with
        ⟨username, friendList, itemList, _, _, hasItems, rfl⟩
      refine ⟨vc.uid, rfl, ?_⟩
      rw [itemListOf, stored, Option.bind_some, hasItems, UserVC.found, UserVC.checkFollowing]
      split_ifs <;> rfl
  | userCopy vc =>
      rcases Option.map_eq_some_iff.mp ran with ⟨after, read, rfl⟩
      have hasEmail : stringAt user firEmailNode = some vc.userEmail := by
        simpa [IsOf, emailOf, stored] using isOf
      rcases UserCopyVC.shows_getUserInfo read with ⟨_, notShown⟩ | ⟨other, isOther, shows⟩
      · exact absurd hasEmail (notShown uid user found)
      · rw [taken.lookup] at isOther
        have otherStored : userRecord db after.friendID = some other := isOther
        have sameEmail := shows.email
        rw [(UserCopyVC.infoFrom_getUserInfo read).userEmail] at sameEmail
        exact ⟨after.friendID, by simp [IsOf, emailOf, otherStored, sameEmail],
          by simp [itemListOf, otherStored, shows.itemList, wantedItems]⟩
  | addEntry vc | friendFeed vc | peopleSearch vc => exact absurd isOf id

end Page

/-- A read of the items by a list of stored ids shows exactly those items. -/
theorem showsItems_of_storedItems {db : Database} {wanted : List String} {current shown : List Item}
    {snapshot : Collection} (taken : Store.IsSnapshot snapshot (db firItemsNode))
    (stored : ∀ itemId ∈ wanted, itemId ∈ storedItems db) (nonempty : wanted ≠ [])
    (read : readItems wanted current snapshot = some shown) : ShowsItems db wanted shown := by
  have inNode : wanted ⊆ (db firItemsNode).keys := fun itemId itemId_mem =>
    Store.mem_keys_iff.mpr (stored itemId itemId_mem)
  rw [readItems, if_pos (snapshotExists_of_stored taken nonempty inNode)] at read
  exact showsItems_of_itemsLoop taken inNode read

namespace System

variable {s next : System} {event : Event}

theorem textsKept_run {first second : List Event} {middle : System}
    (toMiddle : Machine.run step {} first = some middle)
    (reached : Machine.run step middle second = some s) : TextsKept middle.db s.db := by
  refine Machine.run_induction (motive := fun _ s => TextsKept middle.db s.db)
    ⟨fun _ _ => id, fun _ _ => id, fun _ _ => id⟩ ?_ reached
  intro events state event next toState kept stepped
  have toEarlier := Machine.run_trans toMiddle toState
  have now := textsKept_step (profilesOwned_run toEarlier) (newItemsFresh_run toEarlier) stepped
  exact ⟨fun uid username stored => now.username _ _ (kept.username uid username stored),
    fun uid email stored => now.email _ _ (kept.email uid email stored),
    fun itemId item stored => now.item _ _ (kept.item itemId item stored)⟩

/-! ## Pages that are not torn -/

/-- The list was stored, in some earlier state, for a user whose items the page shows. -/
def ListedEarlier (history : List (System × Event)) (db : Database) (session : Session)
    (itemIds : List String) : Prop :=
  ∃ uid, session.page.IsOf db session.userID uid ∧
    ∃ taken ∈ history, itemListOf taken.1.db uid = some itemIds

/-- An open page holds the ids of one list and shows the items of one list, or none. -/
structure PagesWhole (history : List (System × Event)) (s : System) : Prop where
  wanted : ∀ page session, s.sessions page = some session → session.page.wantedItems = [] ∨
    (ListedEarlier history s.db session session.page.wantedItems ∧
      ∀ itemId ∈ session.page.wantedItems, itemId ∈ storedItems s.db)
  shown : ∀ page session, s.sessions page = some session → session.page.shownItems = [] ∨
    ∃ itemIds, ListedEarlier history s.db session itemIds ∧
      ShowsItems s.db itemIds session.page.shownItems

theorem ListedEarlier.step {history : List (System × Event)} {before session : Session}
    {itemIds : List String} (listed : ListedEarlier history s.db before itemIds)
    (moved : s.ItemsFrom next before session) :
    ListedEarlier (history ++ [(s, event)]) next.db session itemIds := by
  rcases listed with ⟨uid, isOf, taken, taken_mem, stored⟩
  exact ⟨uid, moved.isOf uid isOf, taken, List.mem_append_left _ taken_mem, stored⟩

theorem readItems_of_nil {current shown : List Item} {snapshot : Collection}
    (read : readItems [] current snapshot = some shown) : shown = [] ∨ shown = current := by
  unfold readItems at read
  split_ifs at read
  · rw [itemsLoop, Loop.collect_eq_some_iff] at read
    exact Or.inl (by simpa using read.symm)
  · exact Or.inr (Option.some.inj read).symm

theorem pagesWhole_step {history : List (System × Event)} {events : List Event}
    (profiles : s.ProfilesOwned events) (fresh : s.NewItemsFresh) (lists : s.ListsSupplied)
    (pages : s.PagesWhole history) (stepped : s.step event = some next) :
    next.PagesWhole (history ++ [(s, event)]) where
  wanted := by
    intro page session isOpen
    rcases itemsFrom_step profiles stepped isOpen with ⟨none, _⟩ | ⟨before, wasOpen, moved⟩
    · exact Or.inl none
    · have grows := storedItems_subset_step stepped
      rcases moved.wanted with same | ⟨uid, isOf, stored⟩
      · rw [same]
        rcases pages.wanted page before wasOpen with none | ⟨listed, inStore⟩
        · exact Or.inl none
        · exact Or.inr ⟨listed.step moved, fun itemId isWanted => grows (inStore itemId isWanted)⟩
      · refine Or.inr ⟨⟨uid, moved.isOf uid isOf, (s, event), by simp, stored⟩, ?_⟩
        exact fun itemId isWanted => grows (lists.stored uid _ stored itemId isWanted)
  shown := by
    intro page session isOpen
    have kept := textsKept_step profiles fresh stepped
    rcases itemsFrom_step profiles stepped isOpen with ⟨_, none⟩ | ⟨before, wasOpen, moved⟩
    · exact Or.inl none
    have old : before.page.shownItems = [] ∨ ∃ itemIds,
        ListedEarlier (history ++ [(s, event)]) next.db session itemIds ∧
          ShowsItems next.db itemIds before.page.shownItems := by
      rcases pages.shown page before wasOpen with none | ⟨itemIds, listed, shows⟩
      · exact Or.inl none
      · exact Or.inr ⟨itemIds, listed.step moved, shows.mono kept⟩
    rcases moved.shown with same | ⟨snapshot, taken, read⟩
    · rw [same]
      exact old
    rcases pages.wanted page before wasOpen with none | ⟨listed, inStore⟩
    · rw [none] at read
      rcases readItems_of_nil read with empty | same
      · exact Or.inl empty
      · rw [same]
        exact old
    · by_cases nothing : before.page.wantedItems = []
      · rw [nothing] at read
        rcases readItems_of_nil read with empty | same
        · exact Or.inl empty
        · rw [same]
          exact old
      · have shows := showsItems_of_storedItems taken inStore nothing read
        exact Or.inr ⟨_, listed.step moved, shows.mono kept⟩

theorem pagesWhole_run {events : List Event} (reached : Machine.run step {} events = some s) :
    s.PagesWhole (Machine.trace step {} events) := by
  refine Machine.run_induction
    (motive := fun events s => s.PagesWhole (Machine.trace step {} events)) ⟨by simp, by simp⟩ ?_
    reached
  intro events state event next toState pages stepped
  rw [Machine.trace_concat toState]
  exact pagesWhole_step (profilesOwned_run toState) (newItemsFresh_run toState)
    (listsSupplied_run toState) pages stepped

/-- In every reachable state, an open item page shows nothing, or exactly the items of one list that
was stored for a user it shows, each once and with the stored texts, however the reads of the page
and the writes of all clients have interleaved. -/
theorem pagesWhole_reachable {events : List Event} (reached : Machine.run step {} events = some s)
    {page : Nat} {session : Session} (isOpen : s.sessions page = some session) :
    session.page.shownItems = [] ∨
      ∃ itemIds, ListedEarlier (Machine.trace step {} events) s.db session itemIds ∧
        ShowsItems s.db itemIds session.page.shownItems :=
  (pagesWhole_run reached).shown page session isOpen

theorem pagesWhole_readWishlist :
    let s := (Machine.run step {} readWishlist).get (by decide)
    let session := (s.sessions 1).get (by decide)
    session.page.shownItems = [] ∨
      ∃ itemIds, ListedEarlier (Machine.trace step {} readWishlist) s.db session itemIds ∧
        ShowsItems s.db itemIds session.page.shownItems := by
  intro s session
  have isOpen : s.sessions 1 = some session := (Option.some_get _).symm
  exact pagesWhole_reachable (Option.some_get _).symm isOpen

/-! ## Refreshes -/

theorem isSome_sessions_step (stepped : s.step event = some next) {page : Nat}
    (isOpen : (s.sessions page).isSome) : (next.sessions page).isSome := by
  have replaced : ∀ (target : Nat) (session : Session),
      ((s.setSession target session).sessions page).isSome := by
    intro target session
    rw [sessions_setSession]
    split_ifs
    · rfl
    · exact isOpen
  cases event with
  | signUp client uid newItemId userName userEmail =>
      rcases step_signUp stepped with ⟨_, _, _, rfl⟩
      exact isOpen
  | viewDidLoad target client userID screen =>
      rcases step_viewDidLoad stepped with ⟨_, _, rfl⟩
      exact replaced target _
  | viewWillAppear target =>
      rcases step_viewWillAppear stepped with ⟨before, _, rfl⟩
      exact replaced target _
  | deliver target callback snapshot =>
      rcases step_deliver stepped with ⟨before, _, _, _, rfl⟩
      exact replaced target _
  | press target button =>
      rcases step_press stepped with ⟨before, pressed, writes, _, _, _, rfl⟩
      exact replaced target _
  | persist client =>
      rcases step_persist stepped with ⟨write, rest, _, rfl⟩
      exact isOpen
  | stop client =>
      rw [step_stop stepped]
      simpa using isOpen

/-- A page that goes on after a delivery has run the callback. -/
theorem running_deliver {page : Nat} {callback : Callback} {snapshot : Collection}
    (stepped : s.step (.deliver page callback snapshot) = some next) {session : Session}
    (isRunning : next.running page = some session) :
    ∃ before, s.running page = some before ∧
      Store.IsSnapshot snapshot (s.db callback.node) ∧ session.userID = before.userID ∧
      before.page.callback before.userID snapshot callback = some session.page := by
  rcases step_deliver stepped with ⟨before, wasRunning, _, taken, rfl⟩
  rcases running_eq_some_iff.mp isRunning with ⟨isOpen, runs⟩
  rw [sessions_setSession, if_pos rfl, Option.some.injEq] at isOpen
  subst isOpen
  refine ⟨before, wasRunning, taken, Session.userID_deliver _ _ _, ?_⟩
  cases ran : before.page.callback before.userID snapshot callback with
  | some after => simp [Session.deliver, ran]
  | none => simp [Session.deliver, ran] at runs

/-- The page is open, and as long as it runs it holds the ids that were listed in the database for a
user it shows. -/
structure HoldsList (db : Database) (page : Nat) (loads shows : Callback) (s : System) : Prop where
  isOpen : (s.sessions page).isSome
  holds : ∀ session, s.running page = some session → session.page.loads = loads ∧
    session.page.shows = shows ∧ ∃ owner, session.page.IsOf s.db session.userID owner ∧
      itemListOf db owner = some session.page.wantedItems

theorem holdsList_step {events : List Event} (profiles : s.ProfilesOwned events) {db : Database}
    {page : Nat} {loads shows : Callback} (held : s.HoldsList db page loads shows)
    (other : ∀ snapshot, event ≠ .deliver page loads snapshot)
    (stepped : s.step event = some next) : next.HoldsList db page loads shows where
  isOpen := isSome_sessions_step stepped held.isOpen
  holds := by
    intro session isRunning
    rcases running_eq_some_iff.mp isRunning with ⟨isOpen, runs⟩
    rcases sessionOrigin_step stepped isOpen with
      ⟨before, wasOpen, sameUser, _, samePage, stillRunning⟩ |
      ⟨client, userID, screen, rfl, _, rfl⟩ |
      ⟨before, callback, snapshot, rfl, wasRunning, taken, sameUser, _, ran⟩ |
      ⟨before, button, writes, _, wasRunning, sameUser, _, hasButton⟩
    · rcases held.holds before (running_eq_some_iff.mpr ⟨wasOpen, stillRunning runs⟩) with
        ⟨sameLoads, sameShows, owner, isOf, listed⟩
      rw [samePage, sameUser]
      exact ⟨sameLoads, sameShows, owner, isOf_step profiles stepped isOf, listed⟩
    · -- the number of an open page is not used again
      have wasOpen := held.isOpen
      simp [(step_viewDidLoad stepped).1] at wasOpen
    · rcases held.holds before wasRunning with ⟨sameLoads, sameShows, owner, isOf, listed⟩
      have reads := Page.reads_callback ran
      have notLoads : callback ≠ before.page.loads := by
        rintro rfl
        exact other snapshot (by rw [sameLoads])
      rw [reads.1, reads.2, Page.wantedItems_of_ne_loads ran notLoads, sameUser]
      exact ⟨sameLoads, sameShows, owner,
        isOf_step profiles stepped ((Page.isOf_callback ran).mpr isOf), listed⟩
    · rcases held.holds before wasRunning with ⟨sameLoads, sameShows, owner, isOf, listed⟩
      have reads := Page.reads_press hasButton
      rw [reads.1, reads.2, (Page.items_press hasButton).1, sameUser]
      exact ⟨sameLoads, sameShows, owner,
        isOf_step profiles stepped ((Page.isOf_press hasButton).mpr isOf), listed⟩

/-- A page that has just read the ids holds a list that is stored. -/
theorem holdsList_loads {events : List Event} (profiles : s.ProfilesOwned events) {page : Nat}
    {before : Session} {snapshot : Collection} {uid : String} (wasOpen : s.sessions page = some before)
    (isOf : before.page.IsOf s.db before.userID uid) (isUser : (userRecord s.db uid).isSome)
    (stepped : s.step (.deliver page before.page.loads snapshot) = some next) :
    next.HoldsList s.db page before.page.loads before.page.shows where
  isOpen := isSome_sessions_step stepped (by simp [wasOpen])
  holds := by
    intro session isRunning
    rcases running_deliver stepped isRunning with ⟨same, wasRunning, taken, sameUser, ran⟩
    rw [(running_eq_some_iff.mp wasRunning).1, Option.some.injEq] at wasOpen
    subst wasOpen
    have readsUsers : same.page.loads.node = firUsersNode := by
      cases same.page <;> rfl
    rcases Page.storedList_of_loads (readsUsers ▸ taken) isOf isUser ran with
      ⟨owner, isOwner, listed⟩
    have reads := Page.reads_callback ran
    refine ⟨reads.1, reads.2, owner, ?_, listed⟩
    rw [sameUser]
    exact isOf_step profiles stepped ((Page.isOf_callback ran).mpr isOwner)

theorem holdsList_run {first second : List Event} {start : System}
    (toStart : Machine.run step {} first = some start)
    (reached : Machine.run step start second = some s) {db : Database} {page : Nat}
    {loads shows : Callback} (held : start.HoldsList db page loads shows)
    (noReload : ∀ snapshot, .deliver page loads snapshot ∉ second) :
    s.HoldsList db page loads shows := by
  refine Machine.run_induction (motive := fun second s =>
    (∀ snapshot, .deliver page loads snapshot ∉ second) → s.HoldsList db page loads shows)
    (fun _ => held) ?_ reached noReload
  intro events state event next toState ih stepped noReload
  have profiles := profilesOwned_run (Machine.run_trans toStart toState)
  apply holdsList_step profiles ?_ ?_ stepped
  · exact ih fun snapshot inEvents => noReload snapshot (List.mem_append_left _ inEvents)
  · rintro snapshot rfl
    exact noReload snapshot (by simp)

theorem isSome_callback_shows {db : Database} (complete : ItemsComplete db) {page : Page}
    (userID : String) {snapshot : Collection}
    (taken : Store.IsSnapshot snapshot (db page.shows.node)) :
    (page.callback userID snapshot page.shows).isSome := by
  rw [Page.isSome_callback_iff complete taken]
  cases page <;> trivial

/-- No stored item list is empty. -/
theorem itemLists_nonempty_run {events : List Event} (reached : Machine.run step {} events = some s)
    {uid : String} {itemIds : List String} (stored : itemListOf s.db uid = some itemIds) :
    itemIds ≠ [] := by
  refine Machine.run_induction (motive := fun _ s => ∀ uid itemIds,
    itemListOf s.db uid = some itemIds → itemIds ≠ []) ?_ ?_ reached uid itemIds stored
  · simp [itemListOf, userRecord]
  · intro events state event next toState nonempty stepped uid itemIds stored
    rcases db_step stepped with same | ⟨client, write, rest, _, queued, applied⟩
    · exact nonempty uid itemIds (same ▸ stored)
    · have wellFormed := queuesWellFormed_run toState client write (by simp [queued])
      rw [applied] at stored
      rcases itemListOf_apply_cases wellFormed stored with old | written
      · exact nonempty uid itemIds old
      · cases write with
        | setItemList owner list | updateItemList owner list =>
            simp only [Write.itemListWritten, Option.some.injEq, Prod.mk.injEq] at written
            exact written.2 ▸ wellFormed
        | _ => simp [Write.itemListWritten] at written

/-- In every run, when a page reads the ids of its user's items and later the items, with no other
read of the ids delivered in between, it then shows exactly the items that were listed for the user
when the ids were read, whatever all clients have done since. -/
theorem showsItems_refreshed {first between : List Event} {start loaded middle : System} {page : Nat}
    {before : Session} {ids items : Collection} {uid : String}
    (toStart : Machine.run step {} first = some start) (wasOpen : start.sessions page = some before)
    (isOf : before.page.IsOf start.db before.userID uid)
    (isUser : (userRecord start.db uid).isSome)
    (loads : start.step (.deliver page before.page.loads ids) = some loaded)
    (toMiddle : Machine.run step loaded between = some middle)
    (noReload : ∀ snapshot, .deliver page before.page.loads snapshot ∉ between)
    (shows : middle.step (.deliver page before.page.shows items) = some s) :
    ∃ session owner itemIds, s.running page = some session ∧
      session.page.IsOf s.db session.userID owner ∧ itemListOf start.db owner = some itemIds ∧
      ShowsItems s.db itemIds session.page.shownItems := by
  have toLoaded : Machine.run step {} (first ++ [.deliver page before.page.loads ids]) = some loaded :=
    (Machine.run_concat toStart _).trans loads
  have toShows := Machine.run_trans toLoaded toMiddle
  have held := holdsList_run toLoaded toMiddle
    (holdsList_loads (profilesOwned_run toStart) wasOpen isOf isUser loads) noReload
  rcases step_deliver shows with ⟨holder, isRunning, _, taken, same⟩
  rcases held.holds holder isRunning with ⟨_, sameShows, owner, isOwner, listed⟩
  rw [← sameShows] at taken same
  have readsItems : holder.page.shows.node = firItemsNode := by
    cases holder.page <;> rfl
  have readable := isSome_callback_shows (itemsComplete_run toShows) holder.userID taken
  rcases Option.isSome_iff_exists.mp readable with ⟨shown, ran⟩
  have delivered : holder.deliver holder.page.shows items =
      { holder with page := shown, pending := holder.pending.erase holder.page.shows } := by
    simp [Session.deliver, ran]
  -- the ids were stored at the start, with their items
  have inStore : ∀ itemId ∈ holder.page.wantedItems, itemId ∈ storedItems middle.db := by
    intro itemId isWanted
    have wasStored := (listsSupplied_run toStart).stored owner _ listed itemId isWanted
    rcases Option.isSome_iff_exists.mp wasStored with ⟨item, hasItem⟩
    have loading : Machine.run step start [.deliver page before.page.loads ids] = some loaded := by
      simp [loads]
    have kept := textsKept_run toStart (Machine.run_trans loading toMiddle)
    exact Option.isSome_of_mem (kept.item itemId item hasItem)
  have showsNow := showsItems_of_storedItems (readsItems ▸ taken) inStore
    (itemLists_nonempty_run toStart listed) (Page.readItems_of_shows ran rfl)
  rw [delivered] at same
  subst same
  refine ⟨{ holder with page := shown, pending := holder.pending.erase holder.page.shows }, owner,
    holder.page.wantedItems, ?_, (Page.isOf_callback ran).mpr isOwner, listed, showsNow⟩
  rw [running_eq_some_iff, sessions_setSession, if_pos rfl]
  exact ⟨rfl, (running_eq_some_iff.mp isRunning).2⟩

/-- Another save of `ann`, which takes effect while `bob` reads her wishlist. -/
def saveDuringRefresh : List Event :=
  [.press 0 (.save ⟨"Scarf", "scarfs.com", "M", "blue"⟩ "scarf"), .persist 0, .persist 0]

theorem showsItems_saveDuringRefresh :
    let start := (Machine.run step {} searchedWishlist).get (by decide)
    let before := (start.sessions 1).get (by decide)
    let loaded := (start.step (.deliver 1 before.page.loads (start.db firUsersNode))).get (by decide)
    let middle := (Machine.run step loaded saveDuringRefresh).get (by decide)
    let s := (middle.step (.deliver 1 before.page.shows (middle.db firItemsNode))).get (by decide)
    ∃ session owner itemIds, s.running 1 = some session ∧
      session.page.IsOf s.db session.userID owner ∧ itemListOf start.db owner = some itemIds ∧
      ShowsItems s.db itemIds session.page.shownItems := by
  intro start before loaded middle s
  have isOf : before.page.IsOf start.db before.userID "ann" :=
    show emailOf start.db "ann" = some "ann@example.com" by decide
  exact showsItems_refreshed (Option.some_get _).symm (Option.some_get _).symm isOf (by decide)
    (Option.some_get _).symm (Option.some_get _).symm (by simp [saveDuringRefresh])
    (Option.some_get _).symm

end System

end PriceTracker
