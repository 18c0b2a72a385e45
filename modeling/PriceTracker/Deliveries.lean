import PriceTracker.EmailOwners

/-!
# Pages on one database

A page that is opened requests its reads in `viewDidLoad` and again in `viewWillAppear`, and
the callbacks may be delivered in any order. This file says what a delivery from a fixed
database does to a page that shows the items of a user: one callback takes the list of that
user's items, another one shows the items that are listed by then.
-/

namespace PriceTracker

/-- The reads that opening a page requests. -/
def Screen.requested (screen : Screen) : List Callback :=
  screen.viewDidLoad.2 ++ screen.viewDidLoad.1.viewWillAppear

namespace Page

/-- Deliver a callback with a snapshot. -/
def deliver (userID : String) (page : Page) (delivery : Callback × Collection) : Option Page :=
  page.callback userID delivery.2 delivery.1

/-- The snapshots of the deliveries are snapshots of the database. -/
def DeliveredFrom (db : Database) (deliveries : List (Callback × Collection)) : Prop :=
  ∀ delivery ∈ deliveries, Store.IsSnapshot delivery.2 (db delivery.1.node)

instance (db : Database) (deliveries : List (Callback × Collection)) :
    Decidable (DeliveredFrom db deliveries) :=
  inferInstanceAs (Decidable (∀ delivery ∈ deliveries,
    Store.IsSnapshot delivery.2 (db delivery.1.node)))

/-- The page shows the items of the user. -/
def IsOf (db : Database) (userID uid : String) : Page → Prop
  | .profile _ => userID = uid
  | .user vc => vc.uid = uid
  | .userCopy vc => emailOf db uid = some vc.userEmail
  | _ => False

/-- The screen that the page was opened as. -/
def screen : Page → Screen
  | .addEntry _ => .addEntry
  | .userCopy vc => .userCopy vc.userEmail
  | .user vc => .user vc.uid
  | .friendFeed _ => .friendFeed
  | .profile _ => .profile
  | .peopleSearch _ => .peopleSearch

def wantedItems : Page → List String
  | .profile vc => vc.IDList
  | .user vc => vc.itemList
  | .userCopy vc => vc.itemList
  | _ => []

def shownItems : Page → List Item
  | .profile vc => vc.ItemList
  | .user vc => vc.items
  | .userCopy vc => vc.items
  | _ => []

/-- The callback that takes the list of ids. -/
def loads : Page → Callback
  | .profile _ => .getUserItemID
  | _ => .getUserInfo

/-- The callback that shows the listed items. -/
def shows : Page → Callback
  | .profile _ => .setItems
  | _ => .getItems

section Screens

variable {page next : Page} {userID : String} {callback : Callback} {snapshot : Collection}

theorem screen_viewDidLoad (screen : Screen) : screen.viewDidLoad.1.screen = screen := by
  cases screen <;> rfl

theorem screen_callback (ran : page.callback userID snapshot callback = some next) :
    next.screen = page.screen := by
  cases callback_effect ran with
  | userCopyInfo read => simp only [screen, (UserCopyVC.infoFrom_getUserInfo read).userEmail]
  | userInfo read => simp only [screen, UserVC.uid_getUserInfo read]
  | _ => rfl

end Screens

end Page

section Effects

variable {db : Database} {userID uid : String} {itemIds : List String}

theorem UserVC.getUserInfo_of_stored {vc next : UserVC} {snapshot : Collection}
    (taken : Store.IsSnapshot snapshot (db firUsersNode)) {user : Record}
    (stored : userRecord db vc.uid = some user) (read : vc.getUserInfo snapshot = some next) :
    ∃ username friendList itemList, stringAt user firUsernameNode = some username ∧
      stringsAt user firFriendListNode = some friendList ∧
      stringsAt user firItemListNode = some itemList ∧
      next = vc.found username friendList itemList :=
  getUserInfo_of_lookup (taken.lookup vc.uid ▸ stored) read

theorem UserCopyVC.getUserInfo_of_stored {vc next : UserCopyVC}
    (unique : ∀ other, emailOf db other = some vc.userEmail → other = uid)
    {snapshot : Collection} (taken : Store.IsSnapshot snapshot (db firUsersNode)) {user : Record}
    (stored : userRecord db uid = some user)
    (hasEmail : emailOf db uid = some vc.userEmail) (read : vc.getUserInfo snapshot = some next) :
    ∃ username friendList itemList, stringAt user firUsernameNode = some username ∧
      stringsAt user firFriendListNode = some friendList ∧
      stringsAt user firItemListNode = some itemList ∧
      next = vc.found uid username friendList itemList := by
  have isEmail : stringAt user firEmailNode = some vc.userEmail := by
    simpa [emailOf, stored] using hasEmail
  refine getUserInfo_of_unique (taken.lookup uid ▸ stored) isEmail ?_ read
  intro other record isRecord sameEmail
  rw [taken.lookup] at isRecord
  apply unique other
  rw [emailOf, userRecord, isRecord, Option.bind_some, sameEmail]

/-- What a delivery from the database does to the items of a page. -/
structure ItemsAfter (db : Database) (userID uid : String) (itemIds : List String)
    (page next : Page) (callback : Callback) (snapshot : Collection) : Prop where
  isOf : next.IsOf db userID uid
  sameLoads : next.loads = page.loads
  sameShows : next.shows = page.shows
  wanted : next.wantedItems = if callback = page.loads then itemIds else page.wantedItems
  shown : if callback = page.shows then
      readItems page.wantedItems page.shownItems snapshot = some next.shownItems
    else next.shownItems = page.shownItems

theorem itemsAfter_callback (unique : EmailsUnique db) {page next : Page}
    (isOf : page.IsOf db userID uid) (stored : itemListOf db uid = some itemIds)
    {callback : Callback} {snapshot : Collection}
    (taken : Store.IsSnapshot snapshot (db callback.node))
    (ran : page.callback userID snapshot callback = some next) :
    ItemsAfter db userID uid itemIds page next callback snapshot := by
  rcases Option.bind_eq_some_iff.mp stored with ⟨user, isUser, hasItems⟩
  cases Page.callback_effect ran with
  | userCopyInfo read =>
      rcases UserCopyVC.getUserInfo_of_stored (fun _ sameEmail => unique _ _ _ sameEmail isOf) taken
        isUser isOf read with
        ⟨username, friendList, itemList, _, _, isItems, rfl⟩
      rw [hasItems, Option.some.injEq] at isItems
      subst isItems
      unfold UserCopyVC.found UserCopyVC.checkFollowing
      split_ifs <;> exact ⟨isOf, rfl, rfl, rfl, rfl⟩
  | userCopyFriends own => exact ⟨isOf, rfl, rfl, rfl, rfl⟩
  | userCopyItems read => exact ⟨isOf, rfl, rfl, rfl, read⟩
  | userInfo read =>
      subst isOf
      rcases UserVC.getUserInfo_of_stored taken isUser read with
        ⟨username, friendList, itemList, _, _, isItems, rfl⟩
      rw [hasItems, Option.some.injEq] at isItems
      subst isItems
      unfold UserVC.found UserVC.checkFollowing
      split_ifs <;> exact ⟨rfl, rfl, rfl, rfl, rfl⟩
  | userItems read => exact ⟨isOf, rfl, rfl, rfl, read⟩
  | profileIds own =>
      subst isOf
      rw [readOwnList_of_stored taken stored, Option.some.injEq] at own
      subst own
      exact ⟨rfl, rfl, rfl, rfl, rfl⟩
  | profileItems read => exact ⟨isOf, rfl, rfl, rfl, read⟩
  | ignored isForeign =>
      have notLoads : callback ≠ page.loads := by
        rintro rfl
        cases page <;> simp [Page.callbacks, Page.loads, Page.IsOf] at isForeign isOf
      have notShows : callback ≠ page.shows := by
        rintro rfl
        cases page <;> simp [Page.callbacks, Page.shows, Page.IsOf] at isForeign isOf
      exact ⟨isOf, rfl, rfl, by rw [if_neg notLoads], by rw [if_neg notShows]⟩
  | _ => exact absurd isOf id

/-- A delivery fails on complete records only if the items cannot be read. -/
theorem isSome_callback_of_complete (complete : AllComplete db) {page : Page}
    (own : (userRecord db userID).isSome) (isOf : page.IsOf db userID uid)
    (isUser : (userRecord db uid).isSome) {callback : Callback} {snapshot : Collection}
    (taken : Store.IsSnapshot snapshot (db callback.node))
    (readable : callback = page.shows →
      (readItems page.wantedItems page.shownItems snapshot).isSome) :
    (page.callback userID snapshot callback).isSome := by
  rcases Option.isSome_iff_exists.mp own with ⟨self, isSelf⟩
  rcases (complete userID self isSelf).friendList with ⟨friends, hasFriends, _⟩
  rcases (complete userID self isSelf).itemList with ⟨itemIds, hasItems, _⟩
  cases page <;> simp only [Page.IsOf] at isOf <;> cases callback <;>
    simp only [Page.callback, Option.isSome_map, Option.isSome_some]
  case userCopy.getUserInfo vc => exact complete.isSome_getUserInfo vc taken
  case userCopy.getCurrentUserInfo vc =>
    have stored : friendListOf db userID = some friends := by simp [friendListOf, isSelf, hasFriends]
    simp [UserCopyVC.getCurrentUserInfo, readOwnList_of_stored taken stored]
  case userCopy.getItems vc =>
    rw [UserCopyVC.getItems, Option.isSome_map]
    exact readable rfl
  case user.getUserInfo vc =>
    subst isOf
    rcases Option.isSome_iff_exists.mp isUser with ⟨user, stored⟩
    have hasInfo := (complete vc.uid user stored).hasUserInfo
    rw [UserVC.isSome_getUserInfo_iff]
    exact fun _ => ⟨user, taken.lookup vc.uid ▸ stored, hasInfo.username, hasInfo.friendList,
      hasInfo.itemList⟩
  case user.getItems vc =>
    rw [UserVC.getItems, Option.isSome_map]
    exact readable rfl
  case profile.getUserItemID vc =>
    have stored : itemListOf db userID = some itemIds := by simp [itemListOf, isSelf, hasItems]
    simp [ProfileVC.getUserItemID, readOwnList_of_stored taken stored]
  case profile.setItems vc =>
    rw [ProfileVC.setItems, Option.isSome_map]
    exact readable rfl

end Effects

end PriceTracker
