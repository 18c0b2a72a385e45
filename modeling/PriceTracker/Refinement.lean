import PriceTracker.Dangling
import PriceTracker.SharedLists
import Mathlib.Data.List.Perm.Basic

/-!
# The stored data refine abstract wishlists

What the app is for: every account has a wishlist, to which it adds entries, and a list of
the accounts it follows, each once. This file states that meaning as a machine of its own,
and relates it to the database, where a wishlist is a list of keys of `items` and both
lists go through the copies of pages. With writes at once, and as long as pages are in sync
when their buttons are pressed, the database represents the abstract state, and the
profile page shows the abstract wishlist.
-/

namespace PriceTracker

/-! ## The abstract wishlists -/

structure WishlistEntry where
  name : String
  link : String
  size : String
  color : String
  deriving DecidableEq, Repr

/-- The entry that every new account gets. -/
def sampleEntry : WishlistEntry := ⟨"My Cool Shoes", "None", "M", "blizzard blue"⟩

/-- What an account has: an ordered wishlist, and whom it follows, in order and without
duplicates. -/
structure Account where
  wishlist : List WishlistEntry
  follows : List String
  nodup : follows.Nodup

inductive Operation where
  | signUp (uid : String)
  | save (uid : String) (entry : WishlistEntry)
  | follow (uid friend : String)
  deriving DecidableEq

namespace Account

def new (uid : String) : Account where
  wishlist := [sampleEntry]
  follows := [uid]
  nodup := List.nodup_singleton uid

def save (account : Account) (entry : WishlistEntry) : Account :=
  { account with wishlist := account.wishlist ++ [entry] }

def follow (account : Account) (friend : String) : Account where
  wishlist := account.wishlist
  follows := if friend ∈ account.follows then account.follows else account.follows ++ [friend]
  nodup := by
    split_ifs with listed
    · exact account.nodup
    · rw [← List.concat_eq_append]
      exact account.nodup.concat listed

end Account

abbrev Accounts : Type := String → Option Account

def Accounts.step (accounts : Accounts) : Operation → Accounts
  | .signUp uid => Function.update accounts uid (some (.new uid))
  | .save uid entry =>
      Function.update accounts uid ((accounts uid).map fun account => account.save entry)
  | .follow uid friend =>
      Function.update accounts uid ((accounts uid).map fun account => account.follow friend)

def Accounts.run (operations : List Operation) : Accounts :=
  operations.foldl Accounts.step fun _ => none

/-! ## The relation between the database and the wishlists -/

def Item.entry (item : Item) : WishlistEntry :=
  ⟨item.itemName, item.itemURL, item.itemSize, item.itemColor⟩

def EntryForm.entry (form : EntryForm) : WishlistEntry :=
  ⟨form.itemNameTextField, form.linkTextField, form.sizeTextField, form.colorTextField⟩

/-- The entry that is stored under an id. -/
def entryOf (db : Database) (itemId : String) : Option WishlistEntry :=
  (itemRecord db itemId).bind fun item => (itemAt itemId item).map Item.entry

/-- The friend lists are the lists of followed accounts, and the item lists, mapped through
`items`, are the wishlists, both in order. -/
structure Represents (db : Database) (accounts : Accounts) : Prop where
  friendList : ∀ uid, friendListOf db uid = (accounts uid).map Account.follows
  wishlist : ∀ uid, (itemListOf db uid).map (List.map (entryOf db)) =
    (accounts uid).map fun account => account.wishlist.map some

section Operations

variable {db later : Database} {accounts : Accounts} {uid newItemId : String}

theorem map_entryOf_of_new {itemIds : List String}
    (others : ∀ itemId, itemId ≠ newItemId → itemRecord later itemId = itemRecord db itemId)
    (unused : newItemId ∉ itemIds) : itemIds.map (entryOf later) = itemIds.map (entryOf db) := by
  apply List.map_congr_left
  intro itemId itemId_mem
  have different : itemId ≠ newItemId := fun same => unused (same ▸ itemId_mem)
  rw [entryOf, entryOf, others itemId different]

theorem itemRecord_signUp (db : Database) (uid newItemId userName userEmail itemId : String) :
    itemRecord (Write.applyAll db (signUpWrites uid newItemId userName userEmail)) itemId =
      if itemId = newItemId then
        some (itemAttributes "My Cool Shoes" "None" "M" "blizzard blue")
      else itemRecord db itemId := by
  simp [signUpWrites, itemRecord_apply]

theorem Represents.signUp (represents : Represents db accounts)
    (unused : ∀ user itemIds, itemListOf db user = some itemIds → newItemId ∉ itemIds)
    (userName userEmail : String) :
    Represents (Write.applyAll db (signUpWrites uid newItemId userName userEmail))
      (accounts.step (.signUp uid)) := by
  constructor
  · intro user
    rw [friendListOf_signUp, Accounts.step, Function.update_apply]
    split_ifs with same
    · simp [Account.new]
    · exact represents.friendList user
  · intro user
    rw [itemListOf_signUp, Accounts.step, Function.update_apply]
    split_ifs with same
    · simp [entryOf, itemRecord_signUp, Item.entry, Account.new, sampleEntry]
    · rw [← represents.wishlist user]
      cases stored : itemListOf db user with
      | none => rfl
      | some itemIds =>
          rw [Option.map_some, Option.map_some, map_entryOf_of_new ?_ (unused user itemIds stored)]
          intro itemId different
          rw [itemRecord_signUp, if_neg different]

/-- A new item whose key is stored at the end of an item list is a new entry of the wishlist. -/
theorem Represents.save (represents : Represents db accounts)
    (unused : ∀ user itemIds, itemListOf db user = some itemIds → newItemId ∉ itemIds)
    {itemIds : List String} (stored : itemListOf db uid = some itemIds) {form : EntryForm}
    (items : ∀ itemId, itemRecord later itemId = if itemId = newItemId then
        some (itemAttributes form.itemNameTextField form.linkTextField form.sizeTextField
          form.colorTextField)
      else itemRecord db itemId)
    (itemLists : ∀ user, itemListOf later user =
      if user = uid then some (itemIds ++ [newItemId]) else itemListOf db user)
    (friendLists : ∀ user, friendListOf later user = friendListOf db user) :
    Represents later (accounts.step (.save uid form.entry)) := by
  have others : ∀ itemId, itemId ≠ newItemId → itemRecord later itemId = itemRecord db itemId := by
    intro itemId different
    rw [items, if_neg different]
  have isNew : entryOf later newItemId = some form.entry := by
    simp [entryOf, items, Item.entry, EntryForm.entry]
  have isWishlist := represents.wishlist uid
  rw [stored] at isWishlist
  rcases Option.map_eq_some_iff.mp isWishlist.symm with ⟨account, present, isOld⟩
  constructor
  · intro user
    rw [friendLists, represents.friendList, Accounts.step, Function.update_apply]
    split_ifs with same
    · rw [same, Option.map_map]
      rfl
    · rfl
  · intro user
    rw [itemLists, Accounts.step, Function.update_apply]
    split_ifs with same
    · rw [present, Option.map_some, List.map_append,
        map_entryOf_of_new others (unused uid itemIds stored), ← isOld]
      simp [isNew, Account.save]
    · rw [← represents.wishlist user]
      cases isStored : itemListOf db user with
      | none => rfl
      | some ids =>
          rw [Option.map_some, Option.map_some, map_entryOf_of_new others (unused user ids isStored)]

/-- An id that is stored at the end of a friend list, unless it is there, is followed. -/
theorem Represents.follow (represents : Represents db accounts) {friends : List String}
    (stored : friendListOf db uid = some friends) {friend : String}
    (items : ∀ itemId, itemRecord later itemId = itemRecord db itemId)
    (itemLists : ∀ user, itemListOf later user = itemListOf db user)
    (friendLists : ∀ user, friendListOf later user = if user = uid then
        some (if friend ∈ friends then friends else friends ++ [friend])
      else friendListOf db user) :
    Represents later (accounts.step (.follow uid friend)) := by
  have isFollows := represents.friendList uid
  rw [stored] at isFollows
  rcases Option.map_eq_some_iff.mp isFollows.symm with ⟨account, present, rfl⟩
  have sameEntries : entryOf later = entryOf db := by
    funext itemId
    rw [entryOf, entryOf, items]
  constructor
  · intro user
    rw [friendLists, Accounts.step, Function.update_apply]
    by_cases same : user = uid
    · rw [if_pos same, if_pos same, present]
      rfl
    · rw [if_neg same, if_neg same]
      exact represents.friendList user
  · intro user
    rw [itemLists, sameEntries, represents.wishlist, Accounts.step, Function.update_apply]
    split_ifs with same
    · rw [same, present]
      rfl
    · rfl

end Operations

namespace System

variable {s next : System} {event : Event}

def operation (s : System) : Event → Option Operation
  | .signUp _ uid _ _ _ => some (.signUp uid)
  | .press page (.save form _) =>
      (s.running page).map fun session => .save session.userID form.entry
  | .press page .follow =>
      (s.running page).map fun session => .follow session.userID session.page.followed
  | _ => none

def operations (history : List (System × Event)) : List Operation :=
  history.filterMap fun taken => operation taken.1 taken.2

/-- A button is pressed on a page that has received the list that it extends, when no other
page has stored that list since. Follow is pressed on search pages. -/
def PressedInSync (history : List (System × Event)) (s : System) : Event → Prop
  | .press page (.save _ _) =>
      ∀ session ∈ s.running page,
        CachedList.InSync page (itemView.actions session.userID history)
  | .press page .follow =>
      ∀ session ∈ s.running page, session.page.isUserCopy = true ∧
        CachedList.InSync page (friendView.actions session.userID history)
  | _ => True

instance (history : List (System × Event)) (s : System) : DecidablePred (PressedInSync history s)
  | .press page (.save _ _) => inferInstanceAs (Decidable (∀ session ∈ s.running page,
      CachedList.InSync page (itemView.actions session.userID history)))
  | .press page .follow => inferInstanceAs (Decidable (∀ session ∈ s.running page,
      session.page.isUserCopy = true ∧
        CachedList.InSync page (friendView.actions session.userID history)))
  | .signUp _ _ _ _ _ | .viewDidLoad _ _ _ _ | .viewWillAppear _ | .deliver _ _ _ | .persist _
  | .stop _ => .isTrue trivial

theorem RecordsComplete.served_itemView (records : s.RecordsComplete) (uid : String) :
    itemView.Served uid s := by
  rintro page session isOpen rfl
  rcases records.users.complete _ (records.signedIn page session isOpen) with ⟨user, stored, complete⟩
  rcases complete.itemList with ⟨itemIds, hasItems, _⟩
  simp [itemView, itemListOf, stored, hasItems]

theorem RecordsComplete.served_friendView (records : s.RecordsComplete) (uid : String) :
    friendView.Served uid s := by
  rintro page session isOpen rfl
  rcases records.users.complete _ (records.signedIn page session isOpen) with ⟨user, stored, complete⟩
  rcases complete.friendList with ⟨friends, hasFriends, _⟩
  simp [friendView, friendListOf, stored, hasFriends]

/-- A key that was never used is in no stored item list. -/
theorem notMem_itemList_of_unused {events : List Event}
    (reached : Machine.run (stepNow Event.atOnce) {} events = some s) {key : String}
    (unused : key ∉ s.keys) (user : String) (itemIds : List String)
    (stored : itemListOf s.db user = some itemIds) : key ∉ itemIds := by
  rcases exists_run_of_run_stepNow reached with ⟨fine, toState⟩
  rcases itemListsOwned_run toState with ⟨owner, lists⟩
  intro key_mem
  exact unused (lists.used (.stored stored) key_mem)

theorem writes_of_press_save {page pressed : Page} {userID newItemId : String} {form : EntryForm}
    {writes : List Write}
    (hasButton : page.press userID (.save form newItemId) = some (pressed, writes)) :
    writes = [.setItem newItemId (itemAttributes form.itemNameTextField form.linkTextField
      form.sizeTextField form.colorTextField),
      .updateItemList userID (page.itemIds ++ [newItemId])] := by
  cases Page.press_effect hasButton with
  | save => rfl

theorem represents_save {events : List Event} {accounts : Accounts}
    (reached : Machine.run (stepNow Event.atOnce) {} events = some s)
    (represents : Represents s.db accounts) {page : Nat} {session : Session} {form : EntryForm}
    {newItemId : String} {pressed : Page} {writes : List Write}
    (isRunning : s.running page = some session)
    (hasButton : session.page.press session.userID (.save form newItemId) = some (pressed, writes))
    (fresh : newItemId ∉ s.keys)
    (inSync : CachedList.InSync page (itemView.actions session.userID
      (Machine.trace (stepNow Event.atOnce) {} events))) :
    Represents (Write.applyAll s.db writes) (accounts.step (.save session.userID form.entry)) := by
  have stored : itemListOf s.db session.userID = some session.page.itemIds :=
    ListView.stored_eq_copy_of_inSync idle_initial
      (fun _ _ toState => (recordsComplete_atOnce toState).served_itemView _) reached
      (running_eq_some_iff.mp isRunning).1 rfl inSync
  have isWrites := writes_of_press_save hasButton
  subst isWrites
  apply represents.save (notMem_itemList_of_unused reached fresh) stored
  · intro itemId
    simp [itemRecord_apply]
  · intro user
    simp [itemListOf_apply]
  · intro user
    simp [friendListOf_apply]

theorem represents_follow {events : List Event} {accounts : Accounts}
    (reached : Machine.run (stepNow Event.atOnce) {} events = some s)
    (represents : Represents s.db accounts) {page : Nat} {session : Session} {pressed : Page}
    {writes : List Write} (isRunning : s.running page = some session)
    (hasButton : session.page.press session.userID .follow = some (pressed, writes))
    (isSearch : session.page.isUserCopy = true)
    (inSync : CachedList.InSync page (friendView.actions session.userID
      (Machine.trace (stepNow Event.atOnce) {} events))) :
    Represents (Write.applyAll s.db writes)
      (accounts.step (.follow session.userID session.page.followed)) := by
  have stored : friendListOf s.db session.userID = some session.page.myFriendList :=
    ListView.stored_eq_copy_of_inSync idle_initial
      (fun _ _ toState => (recordsComplete_atOnce toState).served_friendView _) reached
      (running_eq_some_iff.mp isRunning).1 rfl inSync
  apply represents.follow stored
  · intro itemId
    rcases (Page.press_follow hasButton).2.2 with ⟨_, _, rfl⟩ | ⟨_, _, rfl⟩
    · rfl
    · simp [itemRecord_apply]
  · intro user
    rcases (Page.press_follow hasButton).2.2 with ⟨_, _, rfl⟩ | ⟨_, _, rfl⟩
    · rfl
    · simp [itemListOf_apply]
  · intro user
    rw [friendListOf_press hasButton]
    by_cases same : user = session.userID
    · rcases Page.exists_userCopy isSearch with ⟨vc, isPage⟩
      rw [if_pos same, if_pos same, same, stored, isPage]
      by_cases listed : vc.friendID ∈ vc.myFriendList <;>
        simp [Page.friendListChange, Page.myFriendList, Page.followed, listed, ListChange.onStored]
    · rw [if_neg same, if_neg same]

/-- Every step of the system performs its operation on the wishlists, if it has one. -/
theorem represents_stepNow {events : List Event} {accounts : Accounts}
    (reached : Machine.run (stepNow Event.atOnce) {} events = some s)
    (inSync : PressedInSync (Machine.trace (stepNow Event.atOnce) {} events) s event)
    (stepped : s.stepNow Event.atOnce event = some next) (represents : Represents s.db accounts) :
    Represents next.db ((operation s event).elim accounts accounts.step) := by
  rcases stepAtOnce_of_stepNow (idle_run idle_initial reached) stepped with
    ⟨client, uid, newItemId, userName, userEmail, rfl, _, _, fresh, rfl⟩ |
    ⟨_, _, _, _, rfl, _, _, rfl⟩ | ⟨_, _, rfl, _, rfl⟩ | ⟨_, _, _, _, rfl, _, _, rfl⟩ |
    ⟨page, session, button, after, writes, rfl, isRunning, hasButton, fresh, rfl⟩ | ⟨_, rfl, rfl⟩
  · exact represents.signUp (notMem_itemList_of_unused reached fresh) userName userEmail
  · exact represents
  · exact represents
  · exact represents
  · cases button with
    | save form newItemId =>
        simp only [operation, isRunning, Option.map_some, Option.elim_some]
        exact represents_save reached represents isRunning hasButton (fresh newItemId rfl)
          (inSync session isRunning)
    | follow =>
        simp only [operation, isRunning, Option.map_some, Option.elim_some]
        exact represents_follow reached represents isRunning hasButton (inSync session isRunning).1
          (inSync session isRunning).2
  · exact represents

theorem represents_run {events : List Event}
    (reached : Machine.run (stepNow Event.atOnce) {} events = some s)
    (inSync : Machine.EachStep (stepNow Event.atOnce) PressedInSync {} events) :
    Represents s.db
      (Accounts.run (operations (Machine.trace (stepNow Event.atOnce) {} events))) := by
  have initial : Represents ({} : System).db fun _ => none := by
    constructor <;> intro uid <;> rfl
  refine Machine.simulation_run (fun s accounts => Represents s.db accounts) initial ?_ reached inSync
  intro events state event following accounts toState pressed stepped represents
  exact represents_stepNow toState pressed stepped represents

/-! ## Showing the wishlist -/

/-- The profile page of an account shows its wishlist, in the order of `items`. -/
def ShowsWishlists (db : Database) (accounts : Accounts) : Prop :=
  ∀ uid account, accounts uid = some account → ∀ users items,
    Store.IsSnapshot users (db firUsersNode) → Store.IsSnapshot items (db firItemsNode) →
    ∃ loaded shown, ({} : ProfileVC).getUserItemID uid users = some loaded ∧
      loaded.setItems items = some shown ∧ (shown.ItemList.map Item.entry).Perm account.wishlist

theorem itemsLoop_perm {db : Database} {itemIds : List String} {entries : List WishlistEntry}
    (isWishlist : itemIds.map (entryOf db) = entries.map some) (nodup : itemIds.Nodup)
    {items : Collection} (taken : Store.IsSnapshot items (db firItemsNode)) :
    ∃ found, itemsLoop itemIds items = some found ∧ (found.map Item.entry).Perm entries := by
  have stored : ∀ itemId ∈ itemIds, ∃ item, itemRecord db itemId = some item ∧
      (itemAt itemId item).isSome := by
    intro itemId itemId_mem
    have isEntry : entryOf db itemId ∈ entries.map some := isWishlist ▸ List.mem_map_of_mem itemId_mem
    rcases List.mem_map.mp isEntry with ⟨entry, _, same⟩
    rcases Option.bind_eq_some_iff.mp same.symm with ⟨item, isItem, read⟩
    rcases Option.map_eq_some_iff.mp read with ⟨decoded, isDecoded, _⟩
    exact ⟨item, isItem, by simp [isDecoded]⟩
  have readable : (itemsLoop itemIds items).isSome := by
    rw [itemsLoop, Loop.isSome_collect_iff]
    rintro ⟨itemId, item⟩ entry_mem isWanted
    rcases stored itemId (by simpa using isWanted) with ⟨other, isOther, isSome⟩
    have isItem : itemRecord db itemId = some item :=
      (taken.lookup itemId).symm.trans (Store.mem_entries_iff.mp entry_mem)
    rw [isItem, Option.some.injEq] at isOther
    exact isOther ▸ isSome
  rcases Option.isSome_iff_exists.mp readable with ⟨found, collected⟩
  refine ⟨found, collected, ?_⟩
  have isCollected : (Store.restrict itemIds items).map (fun entry => itemAt entry.1 entry.2) =
      found.map some := Loop.collect_eq_some_iff.mp collected
  have present : itemIds ⊆ items.keys := by
    intro itemId itemId_mem
    rcases stored itemId itemId_mem with ⟨item, isItem, _⟩
    rw [Store.mem_keys_iff, taken.lookup]
    exact Option.isSome_iff_exists.mpr ⟨item, isItem⟩
  rw [← List.map_perm_map_iff (fun _ _ => Option.some.inj), ← isWishlist]
  have decoded : (found.map Item.entry).map some =
      ((Store.restrict itemIds items).map Sigma.fst).map (entryOf db) := by
    calc
      (found.map Item.entry).map some = (found.map some).map (Option.map Item.entry) := by
        simp [List.map_map, Function.comp_def]
      _ = (Store.restrict itemIds items).map
          (fun entry => (itemAt entry.1 entry.2).map Item.entry) := by
        rw [← isCollected, List.map_map]
        rfl
      _ = ((Store.restrict itemIds items).map Sigma.fst).map (entryOf db) :=
        taken.map_restrict fun itemId item => (itemAt itemId item).map Item.entry
  rw [decoded]
  exact (Store.keys_restrict_perm nodup present).map (entryOf db)

/-- Where the database represents the wishlists and no id is twice in a list, the profile page
shows the wishlists. -/
theorem showsWishlists_of_represents {db : Database} {accounts : Accounts}
    (represents : Represents db accounts)
    (nodup : ∀ uid itemIds, itemListOf db uid = some itemIds → itemIds.Nodup) :
    ShowsWishlists db accounts := by
  intro uid account isAccount users items usersTaken itemsTaken
  have isWishlist := represents.wishlist uid
  rw [isAccount, Option.map_some] at isWishlist
  rcases Option.map_eq_some_iff.mp isWishlist with ⟨itemIds, stored, isEntries⟩
  rcases itemsLoop_perm isEntries (nodup uid itemIds stored) itemsTaken with
    ⟨found, collected, sameEntries⟩
  have load : ({} : ProfileVC).getUserItemID uid users = some { IDList := itemIds } := by
    simp [ProfileVC.getUserItemID, readOwnList_of_stored usersTaken stored]
  cases present : snapshotExists items with
  | true =>
      refine ⟨_, { IDList := itemIds, ItemList := found }, load, ?_, sameEntries⟩
      simp [ProfileVC.setItems, readItems, present, collected]
  | false =>
      -- without items there are no ids, so the empty page is right
      have empty : items.entries = [] := by simpa [snapshotExists] using present
      have nothing : found = [] := by
        simpa [itemsLoop, Loop.collect, empty] using collected.symm
      refine ⟨_, { IDList := itemIds }, load, by simp [ProfileVC.setItems, readItems, present], ?_⟩
      rw [nothing] at sameEntries
      exact sameEntries

/-- In every run with writes at once in which pages are in sync when their buttons are pressed,
the stored data represent the wishlists that the operations of the run lead to, and the
profile pages show them. -/
theorem storedWishlists_of_pressedInSync {events : List Event}
    (reached : Machine.run (stepNow Event.atOnce) {} events = some s)
    (inSync : Machine.EachStep (stepNow Event.atOnce) PressedInSync {} events) :
    Represents s.db
        (Accounts.run (operations (Machine.trace (stepNow Event.atOnce) {} events))) ∧
      ShowsWishlists s.db
        (Accounts.run (operations (Machine.trace (stepNow Event.atOnce) {} events))) := by
  have represents := represents_run reached inSync
  refine ⟨represents, showsWishlists_of_represents represents ?_⟩
  rcases exists_run_of_run_stepNow reached with ⟨fine, toState⟩
  rcases itemListsOwned_run toState with ⟨owner, lists⟩
  intro uid itemIds stored
  exact lists.nodup (.stored stored)

/-- `ann` saves two items and follows `bob`, with one page for each. -/
def savesAndFollow : List Event :=
  twoSignUps ++ [.viewDidLoad 0 0 "ann" .addEntry, .viewDidLoad 1 0 "ann" (.userCopy "bob@example.com"),
    .deliver 0 .usersCallback annAndBob, .deliver 1 .getUserInfo annAndBob,
    .deliver 1 .getCurrentUserInfo annAndBob, .press 0 (.save ⟨"Hat", "", "S", "red"⟩ "hat"),
    .press 1 .follow, .press 0 (.save ⟨"Scarf", "", "M", "blue"⟩ "scarf")]

theorem storedWishlists_savesAndFollow :
    let s := (Machine.run (stepNow Event.atOnce) {} savesAndFollow).get (by decide)
    Represents s.db
        (Accounts.run (operations (Machine.trace (stepNow Event.atOnce) {} savesAndFollow))) ∧
      ShowsWishlists s.db
        (Accounts.run (operations (Machine.trace (stepNow Event.atOnce) {} savesAndFollow))) :=
  storedWishlists_of_pressedInSync (Option.some_get _).symm (Machine.eachStep_of_forall_lt (by decide))

end System

end PriceTracker
