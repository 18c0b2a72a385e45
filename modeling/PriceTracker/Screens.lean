import PriceTracker.Controllers.ItemDetails
import PriceTracker.ItemPages
import PriceTracker.Profiles
import PriceTracker.Provenance

/-!
# What the screens show

A page keeps what it has read, and neither the table nor the page of an item reads again. It is
still true: profiles and items never change, an item is listed only for the user who has issued it,
and the user of an item page stays the same. So a page may miss items, but it shows none that its
user has not issued, and no text that is not stored.
-/

namespace PriceTracker

/-- The entry of `items` with the texts of the item. -/
def Item.attributes (item : Item) : Record :=
  itemAttributes item.itemName item.itemURL item.itemSize item.itemColor

namespace Page

/-- The rows of an item page. -/
def itemRows : Page → Nat
  | .profile vc => vc.numberOfRows
  | .user vc => vc.numberOfRows
  | .userCopy vc => vc.numberOfRows
  | _ => 0

theorem itemRows_eq (page : Page) : page.itemRows = page.shownItems.length := by
  cases page <;> rfl

/-- `didSelectRowAt` and `prepare`: the labels of the item page that a tap on the row opens. -/
def tapOpens (row : Nat) : Page → Option ItemLabels
  | .profile vc => (vc.didSelectRowAt row).map fun tapped => tapped.prepare.viewDidLoad
  | .user vc => (vc.didSelectRowAt row).map fun tapped => tapped.prepare.viewDidLoad
  | .userCopy vc => (vc.didSelectRowAt row).map fun tapped => tapped.prepare.viewDidLoad
  | _ => none

theorem tapOpens_eq (page : Page) (row : Nat) :
    page.tapOpens row = page.shownItems[row]?.map fun item => itemLabels (some item) := by
  cases page with
  | profile vc =>
      simp [tapOpens, shownItems, ProfileVC.didSelectRowAt, ProfileVC.prepare,
        ItemEditVC.viewDidLoad, Function.comp_def]
  | user vc =>
      simp [tapOpens, shownItems, UserVC.didSelectRowAt, UserVC.prepare, ItemVC.viewDidLoad,
        Function.comp_def]
  | userCopy vc =>
      simp [tapOpens, shownItems, UserCopyVC.didSelectRowAt, UserCopyVC.prepare,
        ItemCopyVC.viewDidLoad, Function.comp_def]
  | _ => simp [tapOpens, shownItems]

section Effects

variable {db : Database} {page next : Page} {userID uid : String} {snapshot : Collection}
  {callback : Callback}

theorem isOf_callback (ran : page.callback userID snapshot callback = some next) :
    next.IsOf db userID uid ↔ page.IsOf db userID uid := by
  cases callback_effect ran with
  | userCopyInfo read => simp only [IsOf, (UserCopyVC.infoFrom_getUserInfo read).userEmail]
  | userInfo read => simp only [IsOf, UserVC.uid_getUserInfo read]
  | _ => exact Iff.rfl

theorem isOf_press {button : Button} {writes : List Write}
    (hasButton : page.press userID button = some (next, writes)) :
    next.IsOf db userID uid ↔ page.IsOf db userID uid := by
  cases press_effect hasButton <;> exact Iff.rfl

theorem items_press {button : Button} {writes : List Write}
    (hasButton : page.press userID button = some (next, writes)) :
    next.wantedItems = page.wantedItems ∧ next.shownItems = page.shownItems := by
  cases press_effect hasButton <;> exact ⟨rfl, rfl⟩

/-- A page takes the ids that it shows from the record of its user. -/
theorem wantedItems_callback (taken : Store.IsSnapshot snapshot (db callback.node))
    (ran : page.callback userID snapshot callback = some next) :
    next.wantedItems = page.wantedItems ∨
      ∃ uid, page.IsOf db userID uid ∧ itemListOf db uid = some next.wantedItems := by
  cases callback_effect ran with
  | @userCopyInfo vc after read =>
      rcases UserCopyVC.shows_getUserInfo read with ⟨rfl, _⟩ | ⟨user, found, shows⟩
      · exact Or.inl rfl
      · rw [taken.lookup] at found
        have isUser : userRecord db after.friendID = some user := found
        refine Or.inr ⟨after.friendID, ?_, by simp [itemListOf, isUser, shows.itemList, wantedItems]⟩
        have hasEmail := shows.email
        rw [(UserCopyVC.infoFrom_getUserInfo read).userEmail] at hasEmail
        simp [IsOf, emailOf, isUser, hasEmail]
  | @userInfo vc after read =>
      rcases UserVC.getUserInfo_cases read with
        ⟨_, rfl⟩ | ⟨user, username, friendList, itemList, found, _, _, hasItems, same⟩
      · exact Or.inl rfl
      · rw [taken.lookup] at found
        have isUser : userRecord db vc.uid = some user := found
        have list : after.itemList = itemList := by
          rw [same, UserVC.found, UserVC.checkFollowing]
          split_ifs <;> rfl
        exact Or.inr ⟨vc.uid, rfl, by simp [itemListOf, isUser, hasItems, wantedItems, list]⟩
  | profileIds own =>
      rcases readOwnList_cases own with same | ⟨user, found, hasItems⟩
      · exact Or.inl same
      · rw [taken.lookup] at found
        have isUser : userRecord db userID = some user := found
        exact Or.inr ⟨userID, rfl, by simp [itemListOf, isUser, hasItems, wantedItems]⟩
  | _ => exact Or.inl rfl

/-- A page takes the items that it shows from `items`, by the ids that it holds. -/
theorem shownItems_callback (ran : page.callback userID snapshot callback = some next) :
    next.shownItems = page.shownItems ∨
      (callback.node = firItemsNode ∧
        readItems page.wantedItems page.shownItems snapshot = some next.shownItems) := by
  cases callback_effect ran with
  | userCopyInfo read => exact Or.inl (UserCopyVC.items_getUserInfo read)
  | userInfo read => exact Or.inl (UserVC.items_getUserInfo read)
  | userCopyItems read | userItems read | profileItems read => exact Or.inr ⟨rfl, read⟩
  | _ => exact Or.inl rfl

theorem items_viewDidLoad (screen : Screen) :
    screen.viewDidLoad.1.wantedItems = [] ∧ screen.viewDidLoad.1.shownItems = [] := by
  cases screen <;> exact ⟨rfl, rfl⟩

end Effects

end Page

/-- The items that a read shows are stored, under ids that were wanted. -/
theorem stored_of_readItems {db : Database} {wanted : List String} {current shown : List Item}
    {snapshot : Collection} (taken : Store.IsSnapshot snapshot (db firItemsNode))
    (read : readItems wanted current snapshot = some shown) :
    shown = current ∨ ∀ item ∈ shown, item.itemID ∈ wanted ∧
      ∃ record, itemRecord db item.itemID = some record ∧ itemAt item.itemID record = some item := by
  unfold readItems at read
  split_ifs at read
  · right
    have entries : (Store.restrict wanted snapshot).map (fun entry => itemAt entry.1 entry.2) =
        shown.map some := Loop.collect_eq_some_iff.mp read
    intro item item_mem
    have isRead : some item ∈ (Store.restrict wanted snapshot).map
        (fun entry => itemAt entry.1 entry.2) := by
      rw [entries]
      exact List.mem_map_of_mem item_mem
    rcases List.mem_map.mp isRead with ⟨⟨key, record⟩, entry_mem, same⟩
    have isKey := itemID_of_itemAt same
    subst isKey
    rcases Store.mem_restrict_iff.mp entry_mem with ⟨isEntry, isWanted⟩
    rw [Store.mem_entries_iff, taken.lookup] at isEntry
    exact ⟨isWanted, record, isEntry, same⟩
  · simp only [Option.some.injEq] at read
    exact Or.inl read.symm

namespace System

variable {s next : System} {event : Event}

/-! ## Items -/

/-- What a step does to the items of a page: it keeps the users that the page shows, and it keeps
the ids and the items or reads them. -/
structure ItemsFrom (s next : System) (before session : Session) : Prop where
  isOf : ∀ uid, before.page.IsOf s.db before.userID uid →
    session.page.IsOf next.db session.userID uid
  wanted : session.page.wantedItems = before.page.wantedItems ∨
    ∃ uid, before.page.IsOf s.db before.userID uid ∧
      itemListOf s.db uid = some session.page.wantedItems
  shown : session.page.shownItems = before.page.shownItems ∨
    ∃ snapshot, Store.IsSnapshot snapshot (s.db firItemsNode) ∧
      readItems before.page.wantedItems before.page.shownItems snapshot =
        some session.page.shownItems

/-- The item was issued by a user whose items the page shows. -/
def IssuedByShown (history : List (System × Event)) (db : Database) (session : Session)
    (key : String) (item : Record) : Prop :=
  ∃ uid, session.page.IsOf db session.userID uid ∧ Authored history uid key item

/-- Open pages hold ids and items that the users they show have issued. -/
structure ScreensAuthored (history : List (System × Event)) (s : System) : Prop where
  wanted : ∀ page session, s.sessions page = some session → ∀ key ∈ session.page.wantedItems,
    ∃ item, IssuedByShown history s.db session key item
  shown : ∀ page session, s.sessions page = some session → ∀ item ∈ session.page.shownItems,
    IssuedByShown history s.db session item.itemID item.attributes ∧
      itemRecord s.db item.itemID = some item.attributes

theorem emailOf_step {events : List Event} (profiles : s.ProfilesOwned events)
    (stepped : s.step event = some next) {uid email : String}
    (stored : emailOf s.db uid = some email) : emailOf next.db uid = some email := by
  have profiled : uid ∈ profiledUsers s.db := by simp [profiledUsers, profileAt, stored]
  have kept := profileAt_step profiles.fresh stepped profiled
  exact (congrArg Prod.snd kept).trans stored

theorem isOf_step {events : List Event} (profiles : s.ProfilesOwned events)
    (stepped : s.step event = some next) {page : Page} {userID uid : String}
    (isOf : page.IsOf s.db userID uid) : page.IsOf next.db userID uid := by
  cases page with
  | userCopy vc => exact emailOf_step profiles stepped isOf
  | _ => exact isOf

/-- A page is new and shows nothing, or shows what it did or what it has read. -/
theorem itemsFrom_step {events : List Event} (profiles : s.ProfilesOwned events)
    (stepped : s.step event = some next) {page : Nat} {session : Session}
    (isOpen : next.sessions page = some session) :
    (session.page.wantedItems = [] ∧ session.page.shownItems = []) ∨
      ∃ before, s.sessions page = some before ∧ s.ItemsFrom next before session := by
  rcases sessionOrigin_step stepped isOpen with
    ⟨before, wasOpen, sameUser, _, samePage, _⟩ | ⟨client, userID, screen, _, _, rfl⟩ |
    ⟨before, callback, snapshot, _, isRunning, taken, sameUser, _, ran⟩ |
    ⟨before, button, writes, _, isRunning, sameUser, _, hasButton⟩
  · refine Or.inr ⟨before, wasOpen, ?_, Or.inl (by rw [samePage]), Or.inl (by rw [samePage])⟩
    intro uid isOf
    rw [samePage, sameUser]
    exact isOf_step profiles stepped isOf
  · exact Or.inl (Page.items_viewDidLoad screen)
  · refine Or.inr ⟨before, (running_eq_some_iff.mp isRunning).1, ?_,
      Page.wantedItems_callback taken ran, ?_⟩
    · intro uid isOf
      rw [sameUser]
      exact isOf_step profiles stepped ((Page.isOf_callback ran).mpr isOf)
    · rcases Page.shownItems_callback ran with same | ⟨readsItems, read⟩
      · exact Or.inl same
      · exact Or.inr ⟨snapshot, readsItems ▸ taken, read⟩
  · refine Or.inr ⟨before, (running_eq_some_iff.mp isRunning).1, ?_,
      Or.inl (Page.items_press hasButton).1, Or.inl (Page.items_press hasButton).2⟩
    intro uid isOf
    rw [sameUser]
    exact isOf_step profiles stepped ((Page.isOf_press hasButton).mpr isOf)

theorem IssuedByShown.step {history : List (System × Event)} {before session : Session}
    {key : String} {item : Record} (issued : IssuedByShown history s.db before key item)
    (moved : s.ItemsFrom next before session) :
    IssuedByShown (history ++ [(s, event)]) next.db session key item := by
  rcases issued with ⟨uid, isOf, authored⟩
  exact ⟨uid, moved.isOf uid isOf, authored.concat _⟩

/-- Every item is issued with four texts. -/
theorem Authored.exists_attributes {history : List (System × Event)} {uid key : String}
    {item : Record} (authored : Authored history uid key item) :
    ∃ itemName itemLink itemSize itemColor,
      item = itemAttributes itemName itemLink itemSize itemColor := by
  rcases authored with ⟨⟨state, action⟩, _, made⟩
  cases action with
  | signUp client owner newItemId userName userEmail =>
      simp only [newItem, Option.some.injEq, Prod.mk.injEq] at made
      exact ⟨_, _, _, _, made.2.2.symm⟩
  | press page button =>
      cases button with
      | save form newItemId =>
          simp only [newItem, Option.map_eq_some_iff, Prod.mk.injEq] at made
          rcases made with ⟨_, _, _, _, isItem⟩
          exact ⟨_, _, _, _, isItem.symm⟩
      | follow => simp [newItem] at made
  | _ => simp [newItem] at made

/-- An item that was read has the texts of its entry. -/
theorem ItemsAuthored.eq_attributes {history : List (System × Event)}
    (items : s.ItemsAuthored history) {item : Item} {record : Record}
    (stored : itemRecord s.db item.itemID = some record)
    (read : itemAt item.itemID record = some item) : record = item.attributes := by
  rcases items.stored item.itemID record stored with ⟨author, isAuthor⟩
  rcases isAuthor.exists_attributes with ⟨itemName, itemLink, itemSize, itemColor, rfl⟩
  rw [itemAt_itemAttributes, Option.some.injEq] at read
  rw [← read, Item.attributes]

theorem screensAuthored_initial : ({} : System).ScreensAuthored [] where
  wanted := by simp
  shown := by simp

theorem screensAuthored_step {history : List (System × Event)} {events : List Event}
    (profiles : s.ProfilesOwned events) (fresh : s.NewItemsFresh)
    (items : s.ItemsAuthored history) (screens : s.ScreensAuthored history)
    (stepped : s.step event = some next) : next.ScreensAuthored (history ++ [(s, event)]) where
  wanted := by
    intro page session isOpen key key_mem
    rcases itemsFrom_step profiles stepped isOpen with ⟨none, _⟩ | ⟨before, wasOpen, moved⟩
    · simp [none] at key_mem
    · rcases moved.wanted with same | ⟨uid, isOf, stored⟩
      · rw [same] at key_mem
        exact (screens.wanted page before wasOpen key key_mem).imp fun _ issued => issued.step moved
      · rcases items.listed uid _ (.stored stored) key key_mem with ⟨item, authored⟩
        have issued : IssuedByShown history s.db before key item := ⟨uid, isOf, authored⟩
        exact ⟨item, issued.step moved⟩
  shown := by
    intro page session isOpen item item_mem
    have kept : itemRecord s.db item.itemID = some item.attributes →
        itemRecord next.db item.itemID = some item.attributes := itemRecord_step fresh stepped
    rcases itemsFrom_step profiles stepped isOpen with ⟨_, none⟩ | ⟨before, wasOpen, moved⟩
    · simp [none] at item_mem
    have old : item ∈ before.page.shownItems →
        IssuedByShown (history ++ [(s, event)]) next.db session item.itemID item.attributes ∧
          itemRecord next.db item.itemID = some item.attributes := by
      intro wasShown
      rcases screens.shown page before wasOpen item wasShown with ⟨issued, stored⟩
      exact ⟨issued.step moved, kept stored⟩
    rcases moved.shown with same | ⟨snapshot, taken, read⟩
    · exact old (same ▸ item_mem)
    rcases stored_of_readItems taken read with same | readNow
    · exact old (same ▸ item_mem)
    · -- the page holds an id that its user has issued, and the entry is the issued one
      rcases readNow item item_mem with ⟨isWanted, record, stored, isItem⟩
      rw [items.eq_attributes stored isItem] at stored
      rcases screens.wanted page before wasOpen item.itemID isWanted with
        ⟨issuedItem, uid, isOf, authored⟩
      rcases items.stored item.itemID _ stored with ⟨author, isAuthor⟩
      rcases items.unique uid author item.itemID issuedItem _ authored isAuthor with ⟨rfl, rfl⟩
      have issued : IssuedByShown history s.db before item.itemID item.attributes :=
        ⟨uid, isOf, authored⟩
      exact ⟨issued.step moved, kept stored⟩

theorem screensAuthored_run {events : List Event} (reached : Machine.run step {} events = some s) :
    s.ScreensAuthored (Machine.trace step {} events) := by
  refine Machine.run_induction
    (motive := fun events s => s.ScreensAuthored (Machine.trace step {} events))
    screensAuthored_initial ?_ reached
  intro events state event next toState screens stepped
  rw [Machine.trace_concat toState]
  exact screensAuthored_step (profilesOwned_run toState) (newItemsFresh_run toState)
    (itemsAuthored_run toState) screens stepped

/-- In every reachable state, a tap on any row of an open item page opens the page of an item with
the four texts of one stored entry, which a user whose items the tapped page shows has issued, and
nobody else. -/
theorem tappedItem_authored {events : List Event} (reached : Machine.run step {} events = some s)
    {page : Nat} {session : Session} (isOpen : s.sessions page = some session) {row : Nat}
    (isRow : row < session.page.itemRows) :
    ∃ uid itemId itemName itemLink itemSize itemColor,
      session.page.tapOpens row =
        some ⟨some itemName, some itemSize, some itemColor, some itemLink⟩ ∧
      itemRecord s.db itemId = some (itemAttributes itemName itemLink itemSize itemColor) ∧
      session.page.IsOf s.db session.userID uid ∧
      Authored (Machine.trace step {} events) uid itemId
        (itemAttributes itemName itemLink itemSize itemColor) ∧
      ∀ other item, Authored (Machine.trace step {} events) other itemId item → other = uid := by
  rw [Page.itemRows_eq] at isRow
  have atRow := List.getElem?_eq_getElem isRow
  generalize session.page.shownItems[row] = item at atRow
  rcases (screensAuthored_run reached).shown page session isOpen item
    (List.mem_of_getElem? atRow) with ⟨⟨uid, isOf, authored⟩, stored⟩
  refine ⟨uid, item.itemID, item.itemName, item.itemURL, item.itemSize, item.itemColor, ?_, stored,
    isOf, authored, ?_⟩
  · rw [Page.tapOpens_eq, atRow]
    rfl
  · intro other otherItem again
    exact ((itemsAuthored_run reached).unique other uid item.itemID otherItem _ again authored).1

/-- `ann` has saved a hat, and `bob` opens her page from the search. -/
def searchedWishlist : List Event :=
  [.signUp 0 "ann" "shoes1" "Ann" "ann@example.com", .persist 0, .persist 0, .persist 0, .persist 0,
    .signUp 1 "bob" "shoes2" "Bob" "bob@example.com", .persist 1, .persist 1, .persist 1, .persist 1,
    .viewDidLoad 0 0 "ann" .addEntry, .press 0 (.save ⟨"Hat", "hats.com", "S", "red"⟩ "hat"),
    .persist 0, .persist 0, .viewDidLoad 1 1 "bob" (.userCopy "ann@example.com")]

def readWishlist : List Event :=
  let db := ((Machine.run step {} searchedWishlist).get (by decide)).db
  searchedWishlist ++
    [.deliver 1 .getUserInfo (db firUsersNode), .deliver 1 .getItems (db firItemsNode)]

theorem tappedItem_readWishlist :
    let s := (Machine.run step {} readWishlist).get (by decide)
    let session := (s.sessions 1).get (by decide)
    ∃ uid itemId itemName itemLink itemSize itemColor,
      session.page.tapOpens 0 =
        some ⟨some itemName, some itemSize, some itemColor, some itemLink⟩ ∧
      itemRecord s.db itemId = some (itemAttributes itemName itemLink itemSize itemColor) ∧
      session.page.IsOf s.db session.userID uid ∧
      Authored (Machine.trace step {} readWishlist) uid itemId
        (itemAttributes itemName itemLink itemSize itemColor) ∧
      ∀ other item, Authored (Machine.trace step {} readWishlist) other itemId item →
        other = uid := by
  intro s session
  have isOpen : s.sessions 1 = some session := (Option.some_get _).symm
  exact tappedItem_authored (Option.some_get _).symm isOpen (by decide)

end System

/-! ## People -/

/-- Usernames, emails and items that are stored stay as they are. -/
structure TextsKept (db later : Database) : Prop where
  username : ∀ uid username, usernameOf db uid = some username → usernameOf later uid = some username
  email : ∀ uid email, emailOf db uid = some email → emailOf later uid = some email
  item : ∀ itemId item, itemRecord db itemId = some item → itemRecord later itemId = some item

/-- What a page shows about people is stored. A user page is empty until it has found its user; then
its label is the username of that user, and on the page of a search result this user has the email
of the search. The names in the feed and the emails in the search are stored. -/
def Page.PeopleStored (db : Database) : Page → Prop
  | .user vc => (vc.usernameLabel = "" ∧ vc.itemList = [] ∧ vc.items = []) ∨
      usernameOf db vc.uid = some vc.usernameLabel
  | .userCopy vc => (vc.usernameLabel = "" ∧ vc.itemList = [] ∧ vc.items = []) ∨
      (usernameOf db vc.friendID = some vc.usernameLabel ∧
        emailOf db vc.friendID = some vc.userEmail)
  | .friendFeed vc => (∀ username ∈ vc.friendNames, ∃ uid, usernameOf db uid = some username) ∧
      ∀ itemName ∈ vc.recentItemNames, ∃ itemId item, itemRecord db itemId = some item ∧
        stringAt item firItemNameNode = some itemName
  | .peopleSearch vc => ∀ email ∈ vc.currentResults, ∃ uid, emailOf db uid = some email
  | .addEntry _ | .profile _ => True

theorem PeopleSearchVC.stored_getUserEmails {db : Database} {vc next : PeopleSearchVC}
    {snapshot : Collection} (taken : Store.IsSnapshot snapshot (db firUsersNode))
    (present : snapshotExists snapshot = true) (read : vc.getUserEmails snapshot = some next)
    {email : String} (loaded : email ∈ next.results) : ∃ uid, emailOf db uid = some email := by
  rcases (mem_results_iff present read).mp loaded with ⟨⟨uid, user⟩, entry_mem, hasEmail⟩
  rw [Store.mem_entries_iff, taken.lookup] at entry_mem
  have isUser : userRecord db uid = some user := entry_mem
  exact ⟨uid, by simpa [emailOf, isUser] using hasEmail⟩

namespace Page

variable {db later : Database} {page next : Page} {userID : String} {snapshot : Collection}
  {callback : Callback}

theorem PeopleStored.mono (stored : page.PeopleStored db) (kept : TextsKept db later) :
    page.PeopleStored later := by
  cases page with
  | user vc => exact stored.imp_right (kept.username _ _)
  | userCopy vc =>
      exact stored.imp_right fun both => ⟨kept.username _ _ both.1, kept.email _ _ both.2⟩
  | friendFeed vc =>
      refine ⟨fun username shown => (stored.1 username shown).imp fun _ => kept.username _ _, ?_⟩
      intro itemName shown
      rcases stored.2 itemName shown with ⟨itemId, item, isItem, hasName⟩
      exact ⟨itemId, item, kept.item itemId item isItem, hasName⟩
  | peopleSearch vc => exact fun email shown => (stored email shown).imp fun _ => kept.email _ _
  | addEntry vc | profile vc => trivial

end Page

namespace System

variable {s next : System} {event : Event}

theorem textsKept_step {events : List Event} (profiles : s.ProfilesOwned events)
    (fresh : s.NewItemsFresh) (stepped : s.step event = some next) : TextsKept s.db next.db where
  username := by
    intro uid username stored
    have profiled : uid ∈ profiledUsers s.db := by simp [profiledUsers, profileAt, stored]
    have kept := profileAt_step profiles.fresh stepped profiled
    exact (congrArg Prod.fst kept).trans stored
  email := fun _ _ stored => emailOf_step profiles stepped stored
  item := fun _ _ stored => itemRecord_step fresh stepped stored

end System

end PriceTracker
