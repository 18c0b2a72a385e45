import PriceTracker.Feed
import PriceTracker.Library.PositionalJoin

/-!
# What a row of the feed pairs

The feed walks over the users for the usernames and over the items for the item names, and
a cell joins the two lists by position. The dictionaries are enumerated in orders that have
nothing to do with each other, so the rows show users with their own latest items in all
orders exactly when the labels leave no room for a mix-up.
-/

namespace PriceTracker

def latestItemName (db : Database) (uid : String) : Option String :=
  (latestItem db uid).bind (itemNameOf db)

/-- The databases on which the feed is read: user records have what the feed needs of them,
listed items are stored, and no item is in two lists. -/
structure FeedData (db : Database) : Prop where
  username : ∀ uid user, userRecord db uid = some user → (stringAt user firUsernameNode).isSome
  friendList : ∀ uid user, userRecord db uid = some user →
    ∃ friends, stringsAt user firFriendListNode = some friends ∧ friends ≠ []
  itemList : ∀ uid user, userRecord db uid = some user →
    ∃ itemIds, stringsAt user firItemListNode = some itemIds ∧ itemIds ≠ []
  stored : ∀ uid itemIds, itemListOf db uid = some itemIds →
    ∀ itemId ∈ itemIds, itemId ∈ (db firItemsNode).keys
  disjoint : ∀ first second itemIds otherIds, first ≠ second →
    itemListOf db first = some itemIds → itemListOf db second = some otherIds →
      itemIds.Disjoint otherIds

/-- The three callbacks of the feed, delivered in this order. -/
def FriendFeedVC.load (vc : FriendFeedVC) (userID : String)
    (friendSnapshot userSnapshot itemSnapshot : Collection) : Option FriendFeedVC := do
  let vc ← vc.getFriendIDs userID friendSnapshot
  let vc ← vc.getFriendNamesAndRecentItemIDs userSnapshot
  vc.getRecentItemNames itemSnapshot

/-- Each row shows a user of its own, with the name of that user's latest item. -/
def RowsPaired (db : Database) (vc : FriendFeedVC) : Prop :=
  ∃ ks : List String, ks.Nodup ∧ ks ⊆ (db firUsersNode).keys ∧ ks.length = vc.numberOfRows ∧
    ∀ row uid, ks[row]? = some uid → ∃ cell, vc.cellForRowAt row = some cell ∧
      usernameOf db uid = some cell.usernameLabel ∧ latestItemName db uid = some cell.itemLabel

def labels (db : Database) (uid : String) : Option String × Option String :=
  (usernameOf db uid, latestItemName db uid)

def FriendFeedVC.shownLabels (vc : FriendFeedVC) : List (Option String × Option String) :=
  (vc.friendNames.map some).zip (vc.recentItemNames.map some)

theorem subperm_map {γ δ : Type} {f : γ → δ} {first second : List γ}
    (contained : first.Subperm second) : (first.map f).Subperm (second.map f) := by
  rcases contained with ⟨sorted, isPerm, isSublist⟩
  exact ⟨sorted.map f, isPerm.map f, isSublist.map f⟩

theorem nodup_of_subperm {γ : Type} {first second : List γ} (contained : first.Subperm second)
    (nodup : second.Nodup) : first.Nodup := by
  rcases contained with ⟨sorted, isPerm, isSublist⟩
  exact isPerm.nodup_iff.mp (nodup.sublist isSublist)

theorem getElem?_shownLabels (vc : FriendFeedVC) (row : Nat) :
    vc.shownLabels[row]? =
      (vc.cellForRowAt row).map fun cell => (some cell.usernameLabel, some cell.itemLabel) := by
  rw [FriendFeedVC.shownLabels, List.zip, List.getElem?_zipWith, FriendFeedVC.cellForRowAt]
  cases names : vc.friendNames[row]? <;> cases items : vc.recentItemNames[row]? <;>
    simp [names, items]

/-- The rows are paired when the labels they show are those of distinct users. -/
theorem rowsPaired_iff_subperm {db : Database} {vc : FriendFeedVC}
    (sameLength : vc.friendNames.length = vc.recentItemNames.length) :
    RowsPaired db vc ↔ vc.shownLabels.Subperm ((db firUsersNode).keys.map (labels db)) := by
  constructor
  · rintro ⟨ks, nodup, areUsers, rows, paired⟩
    have shown : ks.map (labels db) = vc.shownLabels := by
      apply List.ext_getElem?
      intro row
      rw [getElem?_shownLabels, List.getElem?_map]
      cases atRow : ks[row]? with
      | some uid =>
          rcases paired row uid atRow with ⟨cell, isCell, username, itemName⟩
          simp [isCell, labels, username, itemName]
      | none =>
          have beyond : vc.recentItemNames[row]? = none := by
            rw [List.getElem?_eq_none_iff] at atRow ⊢
            rw [FriendFeedVC.numberOfRows] at rows
            omega
          simp [FriendFeedVC.cellForRowAt, beyond]
    rw [← shown]
    exact subperm_map (nodup.subperm areUsers)
  · intro contained
    rcases PositionalJoin.exists_subperm_map_eq contained with ⟨ks, areUsers, shown⟩
    have rows := congrArg List.length shown
    simp only [FriendFeedVC.shownLabels, List.length_map, List.length_zip, sameLength,
      min_self] at rows
    refine ⟨ks, nodup_of_subperm areUsers (db firUsersNode).nodupKeys, areUsers.subset, rows, ?_⟩
    intro row uid atRow
    have atLabels := getElem?_shownLabels vc row
    rw [← shown, List.getElem?_map, atRow, Option.map_some] at atLabels
    rcases Option.map_eq_some_iff.mp atLabels.symm with ⟨cell, isCell, same⟩
    simp only [labels, Prod.mk.injEq] at same
    exact ⟨cell, isCell, same.1.symm, same.2.symm⟩

section Reads

variable {db : Database}

theorem FeedData.latestItem_stored (data : FeedData db) {uid itemId : String}
    (latest : latestItem db uid = some itemId) : itemId ∈ (db firItemsNode).keys := by
  rcases exists_itemListOf_of_latestItem latest with ⟨itemIds, stored, itemId_mem⟩
  exact data.stored uid itemIds stored itemId itemId_mem

theorem FeedData.present (data : FeedData db) {userID : String} {friends : List String}
    (stored : friendListOf db userID = some friends) {itemSnapshot : Collection}
    (taken : Store.IsSnapshot itemSnapshot (db firItemsNode)) :
    snapshotExists itemSnapshot = true := by
  rcases Option.bind_eq_some_iff.mp stored with ⟨user, isUser, _⟩
  rcases data.itemList userID user isUser with ⟨itemIds, hasItems, nonempty⟩
  have ofUser : itemListOf db userID = some itemIds := by simp [itemListOf, isUser, hasItems]
  rcases List.exists_mem_of_ne_nil itemIds nonempty with ⟨itemId, itemId_mem⟩
  have inItems := data.stored userID itemIds ofUser itemId itemId_mem
  rw [Store.mem_keys_iff, ← taken.lookup] at inItems
  rcases Option.isSome_iff_exists.mp inItems with ⟨item, found⟩
  simp [snapshotExists, Store.entries_ne_nil_of_lookup found]

def latestItems (db : Database) (friends : List String) : List String :=
  (FriendFeedVC.listedFriends friends (db firUsersNode)).filterMap (latestItem db)

theorem filterMap_eq_of_map_some {γ δ : Type} {f : γ → Option δ} {found : List δ}
    {elements : List γ} (readAll : found.map some = elements.map f) :
    elements.filterMap f = found := by
  have compose : elements.filterMap f = (elements.map f).filterMap id := by
    rw [List.filterMap_map, Function.id_comp]
  rw [compose, ← readAll, List.filterMap_map]
  simp

theorem map_some_filterMap {γ δ : Type} {f : γ → Option δ} {elements : List γ}
    (readable : ∀ element ∈ elements, (f element).isSome) :
    (elements.filterMap f).map some = elements.map f := by
  induction elements with
  | nil => rfl
  | cons element elements ih =>
      rw [List.forall_mem_cons] at readable
      rcases Option.isSome_iff_exists.mp readable.1 with ⟨value, readIt⟩
      simp [readIt, ih readable.2]

variable {friends : List String}

theorem FeedData.map_some_latestItems (data : FeedData db) :
    (latestItems db friends).map some =
      (FriendFeedVC.listedFriends friends (db firUsersNode)).map (latestItem db) := by
  apply map_some_filterMap
  intro uid uid_mem
  have isUser := (Store.mem_keys_restrict_iff.mp uid_mem).2
  rw [Store.mem_keys_iff] at isUser
  rcases Option.isSome_iff_exists.mp isUser with ⟨user, stored⟩
  rcases data.itemList uid user stored with ⟨itemIds, hasItems, nonempty⟩
  have isRecord : userRecord db uid = some user := stored
  simp [latestItem, itemListOf, isRecord, hasItems, List.getLast?_eq_some_getLast nonempty]

theorem FeedData.nodup_latestItems (data : FeedData db) : (latestItems db friends).Nodup :=
  nodup_of_map_latestItem data.disjoint Store.nodup_keys_restrict data.map_some_latestItems

theorem FeedData.exists_latestItem_of_mem (data : FeedData db) {itemId : String}
    (itemId_mem : itemId ∈ latestItems db friends) :
    ∃ uid ∈ FriendFeedVC.listedFriends friends (db firUsersNode),
      latestItem db uid = some itemId := by
  have isLatest : some itemId ∈ (latestItems db friends).map some := List.mem_map_of_mem itemId_mem
  rw [data.map_some_latestItems] at isLatest
  exact List.mem_map.mp isLatest

theorem FeedData.latestItems_subset (data : FeedData db) :
    latestItems db friends ⊆ (db firItemsNode).keys := by
  intro itemId itemId_mem
  rcases data.exists_latestItem_of_mem itemId_mem with ⟨uid, _, latest⟩
  exact data.latestItem_stored latest

theorem FeedData.map_itemNameOf_latestItems (data : FeedData db) :
    (latestItems db friends).map (itemNameOf db) =
      (FriendFeedVC.listedFriends friends (db firUsersNode)).map (latestItemName db) := by
  calc
    (latestItems db friends).map (itemNameOf db)
        = ((latestItems db friends).map some).map fun latest => latest.bind (itemNameOf db) := by
          rw [List.map_map]
          rfl
    _ = ((FriendFeedVC.listedFriends friends (db firUsersNode)).map (latestItem db)).map
          fun latest => latest.bind (itemNameOf db) := by rw [data.map_some_latestItems]
    _ = (FriendFeedVC.listedFriends friends (db firUsersNode)).map (latestItemName db) := by
          rw [List.map_map]
          rfl

/-- The latest items that the second read collects are those of the friends, in some order. -/
theorem mem_recentItemList_iff {vc filled : FriendFeedVC}
    {userSnapshot : Collection} (taken : Store.IsSnapshot userSnapshot (db firUsersNode))
    (latest : filled.recentItemList.map some =
      (FriendFeedVC.listedFriends vc.friendList userSnapshot).map (latestItem db))
    (itemId : String) :
    itemId ∈ filled.recentItemList ↔ itemId ∈ latestItems db vc.friendList := by
  rw [← filterMap_eq_of_map_some latest, latestItems]
  simp only [List.mem_filterMap]
  have sameUsers : ∀ uid, uid ∈ FriendFeedVC.listedFriends vc.friendList userSnapshot ↔
      uid ∈ FriendFeedVC.listedFriends vc.friendList (db firUsersNode) := by
    intro uid
    exact (taken.restrict_perm.map Sigma.fst).mem_iff
  simp only [sameUsers]

/-- The first two reads on a database whose user records have what they need. -/
theorem FriendFeedVC.exists_filled {userID : String}
    (readable : ∀ uid user, userRecord db uid = some user → (FriendFeedVC.friendRow user).isSome)
    (stored : friendListOf db userID = some friends) {friendSnapshot userSnapshot : Collection}
    (friendsTaken : Store.IsSnapshot friendSnapshot (db firUsersNode))
    (usersTaken : Store.IsSnapshot userSnapshot (db firUsersNode)) (vc : FriendFeedVC) :
    ∃ filled : FriendFeedVC,
      (∀ itemSnapshot, vc.load userID friendSnapshot userSnapshot itemSnapshot =
        filled.getRecentItemNames itemSnapshot) ∧
      filled.friendList = friends ∧ filled.recentItemNames = vc.recentItemNames ∧
      filled.friendNames.map some =
        (FriendFeedVC.listedFriends friends userSnapshot).map (usernameOf db) ∧
      ∀ itemId, itemId ∈ filled.recentItemList ↔ itemId ∈ latestItems db friends := by
  have loaded : vc.getFriendIDs userID friendSnapshot = some { vc with friendList := friends } :=
    FriendFeedVC.getFriendIDs_of_stored friendsTaken stored
  have present : snapshotExists userSnapshot = true := by
    rcases Option.bind_eq_some_iff.mp stored with ⟨user, isUser, _⟩
    have found : userSnapshot.lookup userID = some user := usersTaken.lookup userID ▸ isUser
    simp [snapshotExists, Store.entries_ne_nil_of_lookup found]
  have succeeds : (({ vc with friendList := friends } : FriendFeedVC)
      |>.getFriendNamesAndRecentItemIDs userSnapshot).isSome := by
    rw [FriendFeedVC.isSome_getFriendNamesAndRecentItemIDs_iff]
    rintro ⟨uid, user⟩ entry_mem _
    apply readable uid user
    rw [userRecord, ← usersTaken.lookup]
    exact Store.mem_entries_iff.mp entry_mem
  rcases Option.isSome_iff_exists.mp succeeds with ⟨filled, fill⟩
  rcases FriendFeedVC.columns_of_getFriendNamesAndRecentItemIDs usersTaken present fill with
    ⟨sameFriends, sameNames, names, latest⟩
  refine ⟨filled, ?_, sameFriends, sameNames, names, mem_recentItemList_iff usersTaken latest⟩
  intro itemSnapshot
  simp [FriendFeedVC.load, loaded, fill]

theorem FeedData.readable (data : FeedData db) (uid : String) (user : Record)
    (stored : userRecord db uid = some user) : (FriendFeedVC.friendRow user).isSome :=
  FriendFeedVC.isSome_friendRow_iff.mpr ⟨data.username uid user stored,
    data.itemList uid user stored⟩

/-- The three reads on one database: the columns of the table, in the orders in which the users
and the items are enumerated. -/
theorem FeedData.columns_of_load (data : FeedData db) {userID : String}
    (stored : friendListOf db userID = some friends)
    {friendSnapshot userSnapshot itemSnapshot : Collection}
    (friendsTaken : Store.IsSnapshot friendSnapshot (db firUsersNode))
    (usersTaken : Store.IsSnapshot userSnapshot (db firUsersNode))
    (itemsTaken : Store.IsSnapshot itemSnapshot (db firItemsNode)) (vc : FriendFeedVC) :
    ((vc.load userID friendSnapshot userSnapshot itemSnapshot).isSome ↔
      ∀ uid ∈ FriendFeedVC.listedFriends friends (db firUsersNode),
        (latestItemName db uid).isSome) ∧
    ∀ shown, vc.load userID friendSnapshot userSnapshot itemSnapshot = some shown →
      shown.friendNames.map some =
        ((Store.restrict friends userSnapshot).map Sigma.fst).map (usernameOf db) ∧
      shown.recentItemNames.map some =
        ((Store.restrict (latestItems db friends) itemSnapshot).map Sigma.fst).map
          (itemNameOf db) := by
  rcases FriendFeedVC.exists_filled data.readable stored friendsTaken usersTaken vc with
    ⟨filled, isLoad, _, _, names, isLatest⟩
  rw [isLoad]
  constructor
  · rw [FriendFeedVC.isSome_getRecentItemNames_iff]
    constructor
    · intro readable uid uid_mem
      have ofUser : latestItem db uid ∈ (latestItems db friends).map some := by
        rw [data.map_some_latestItems]
        exact List.mem_map_of_mem uid_mem
      rcases List.mem_map.mp ofUser with ⟨itemId, itemId_mem, ofItem⟩
      have inItems := data.latestItems_subset itemId_mem
      rw [Store.mem_keys_iff, ← itemsTaken.lookup] at inItems
      rcases Option.isSome_iff_exists.mp inItems with ⟨item, found⟩
      have hasName := readable ⟨itemId, item⟩ (Store.mem_entries_iff.mpr found)
        ((isLatest itemId).mpr itemId_mem)
      rw [itemsTaken.lookup] at found
      have isItem : itemRecord db itemId = some item := found
      simpa [latestItemName, ← ofItem, itemNameOf, isItem] using hasName
    · rintro named ⟨itemId, item⟩ entry_mem isRecent
      rcases data.exists_latestItem_of_mem ((isLatest itemId).mp isRecent) with
        ⟨uid, uid_mem, ofUser⟩
      have found := Store.mem_entries_iff.mp entry_mem
      rw [itemsTaken.lookup] at found
      have isItem : itemRecord db itemId = some item := found
      simpa [latestItemName, ofUser, itemNameOf, isItem] using named uid uid_mem
  · intro shown finish
    rcases FriendFeedVC.names_of_getRecentItemNames itemsTaken
      (data.present stored itemsTaken) finish with ⟨sameNames, _, itemNames⟩
    rw [sameNames, itemNames, Store.restrict_congr isLatest]
    exact ⟨names, rfl⟩

theorem FeedData.sameLength_of_columns (data : FeedData db) {shown : FriendFeedVC}
    {userSnapshot itemSnapshot : Collection}
    (usersTaken : Store.IsSnapshot userSnapshot (db firUsersNode))
    (itemsTaken : Store.IsSnapshot itemSnapshot (db firItemsNode))
    (names : shown.friendNames.map some =
      ((Store.restrict friends userSnapshot).map Sigma.fst).map (usernameOf db))
    (itemNames : shown.recentItemNames.map some =
      ((Store.restrict (latestItems db friends) itemSnapshot).map Sigma.fst).map (itemNameOf db)) :
    shown.friendNames.length = shown.recentItemNames.length := by
  have namesLength := congrArg List.length names
  have itemNamesLength := congrArg List.length itemNames
  have latestLength := congrArg List.length (data.map_some_latestItems : (latestItems db friends).map
    some = _)
  have userLength : (Store.restrict friends userSnapshot).length =
      (Store.restrict friends (db firUsersNode)).length := usersTaken.restrict_perm.length_eq
  have itemLength : (Store.restrict (latestItems db friends) itemSnapshot).length =
      (Store.restrict (latestItems db friends) (db firItemsNode)).length :=
    itemsTaken.restrict_perm.length_eq
  have found := (Store.keys_restrict_perm data.nodup_latestItems
    (data.latestItems_subset : latestItems db friends ⊆ _)).length_eq
  simp only [List.length_map] at namesLength itemNamesLength found
  simp only [List.length_map, FriendFeedVC.listedFriends] at latestLength
  omega

end Reads

/-- Each listed friend's latest item has a name, and no username and item name can meet in more
rows than there are users with that username whose latest item has that name. -/
def LabelsForced (db : Database) (friends : List String) : Prop :=
  (∀ uid ∈ FriendFeedVC.listedFriends friends (db firUsersNode), (latestItemName db uid).isSome) ∧
  ∀ username itemName : String,
    min ((FriendFeedVC.listedFriends friends (db firUsersNode)).countP fun uid =>
          usernameOf db uid = some username)
        ((FriendFeedVC.listedFriends friends (db firUsersNode)).countP fun uid =>
          latestItemName db uid = some itemName) ≤
      (db firUsersNode).keys.countP fun uid =>
        usernameOf db uid = some username ∧ latestItemName db uid = some itemName

section Counts

variable {db : Database} {friends : List String}

theorem count_map_eq_countP {γ δ : Type} [BEq δ] [LawfulBEq δ] [DecidableEq δ] (f : γ → δ)
    (elements : List γ) (value : δ) :
    (elements.map f).count value = elements.countP fun element => f element = value := by
  rw [List.count, List.countP_map]
  apply List.countP_congr
  intro element _
  simp

theorem isSome_usernameOf_of_listed
    (named : ∀ uid user, userRecord db uid = some user → (stringAt user firUsernameNode).isSome)
    {uid : String} (listed : uid ∈ FriendFeedVC.listedFriends friends (db firUsersNode)) :
    (usernameOf db uid).isSome := by
  have isUser := (Store.mem_keys_restrict_iff.mp listed).2
  rw [Store.mem_keys_iff] at isUser
  rcases Option.isSome_iff_exists.mp isUser with ⟨user, stored⟩
  have isRecord : userRecord db uid = some user := stored
  simpa [usernameOf, isRecord] using named uid user stored

/-- The counts of labels that decide about the rows are the counts of users with the labels. -/
theorem FeedData.counts_iff (data : FeedData db)
    (named : ∀ uid ∈ FriendFeedVC.listedFriends friends (db firUsersNode),
      (latestItemName db uid).isSome) :
    (∀ first second : Option String,
      min (((FriendFeedVC.listedFriends friends (db firUsersNode)).map (usernameOf db)).count first)
          (((FriendFeedVC.listedFriends friends (db firUsersNode)).map (latestItemName db)).count
            second) ≤
        ((db firUsersNode).keys.map (labels db)).count (first, second)) ↔
    LabelsForced db friends := by
  have bothLabels : ∀ username itemName : String,
      ((db firUsersNode).keys.map (labels db)).count (some username, some itemName) =
        (db firUsersNode).keys.countP fun uid =>
          usernameOf db uid = some username ∧ latestItemName db uid = some itemName := by
    intro username itemName
    rw [count_map_eq_countP]
    simp only [labels, Prod.mk.injEq]
  constructor
  · intro enough
    refine ⟨named, ?_⟩
    intro username itemName
    have atLabels := enough (some username) (some itemName)
    rw [bothLabels, count_map_eq_countP, count_map_eq_countP] at atLabels
    exact atLabels
  · rintro ⟨_, enough⟩ first second
    -- no listed friend is without a username or without a latest item
    have noMissing : ∀ f : String → Option String,
        (∀ uid ∈ FriendFeedVC.listedFriends friends (db firUsersNode), (f uid).isSome) →
        ((FriendFeedVC.listedFriends friends (db firUsersNode)).map f).count none = 0 := by
      intro f isSome
      rw [List.count_eq_zero]
      intro missing
      rcases List.mem_map.mp missing with ⟨uid, uid_mem, isNone⟩
      have found := isSome uid uid_mem
      simp [isNone] at found
    cases first with
    | none =>
        rw [noMissing (usernameOf db) fun uid listed => isSome_usernameOf_of_listed data.username listed]
        omega
    | some username =>
        cases second with
        | none =>
            rw [noMissing (latestItemName db) named]
            omega
        | some itemName =>
            rw [bothLabels, count_map_eq_countP, count_map_eq_countP]
            exact enough username itemName

/-- The labels in all orders of the users and of the items, by the counts of labels. -/
theorem FeedData.forall_orders_iff (data : FeedData db)
    {pairs : List (Option String × Option String)} :
    (∀ userOrder itemOrder : List (Sigma fun _ : String => Record),
      userOrder.Perm (Store.restrict friends (db firUsersNode)) →
      itemOrder.Perm (Store.restrict (latestItems db friends) (db firItemsNode)) →
        (((userOrder.map Sigma.fst).map (usernameOf db)).zip
          ((itemOrder.map Sigma.fst).map (itemNameOf db))).Subperm pairs) ↔
    ∀ first second : Option String,
      min (((FriendFeedVC.listedFriends friends (db firUsersNode)).map (usernameOf db)).count first)
          (((FriendFeedVC.listedFriends friends (db firUsersNode)).map (latestItemName db)).count
            second) ≤ pairs.count (first, second) := by
  have sameItems : ∀ second : Option String,
      ((Store.restrict (latestItems db friends) (db firItemsNode)).map
        (itemNameOf db ∘ Sigma.fst)).count second =
      ((FriendFeedVC.listedFriends friends (db firUsersNode)).map (latestItemName db)).count
        second := by
    intro second
    rw [← data.map_itemNameOf_latestItems, ← List.map_map]
    apply List.Perm.count_eq
    exact (Store.keys_restrict_perm data.nodup_latestItems data.latestItems_subset).map _
  simp only [FriendFeedVC.listedFriends, List.map_map] at sameItems ⊢
  rw [PositionalJoin.forall_perm_subperm_iff]
  simp only [sameItems]

end Counts

/-- On a database with the data of a feed, the reads succeed and the rows are paired in all
orders of the users and of the items exactly when the labels are forced. -/
theorem rowsPaired_iff_labelsForced {db : Database} (data : FeedData db) {userID : String}
    {friends : List String} (stored : friendListOf db userID = some friends) (vc : FriendFeedVC) :
    (∀ friendSnapshot userSnapshot itemSnapshot,
      Store.IsSnapshot friendSnapshot (db firUsersNode) →
      Store.IsSnapshot userSnapshot (db firUsersNode) →
      Store.IsSnapshot itemSnapshot (db firItemsNode) →
        ∃ shown, vc.load userID friendSnapshot userSnapshot itemSnapshot = some shown ∧
          RowsPaired db shown) ↔
    LabelsForced db friends := by
  constructor
  · intro paired
    have named : ∀ uid ∈ FriendFeedVC.listedFriends friends (db firUsersNode),
        (latestItemName db uid).isSome := by
      rcases paired _ _ _ (.refl _) (.refl _) (.refl _) with ⟨shown, isShown, _⟩
      exact (data.columns_of_load stored (.refl _) (.refl _) (.refl _) vc).1.mp (by simp [isShown])
    rw [← data.counts_iff named, ← data.forall_orders_iff]
    intro userOrder itemOrder userPerm itemPerm
    rcases Store.exists_snapshot_restrict userPerm with ⟨userSnapshot, usersTaken, rfl⟩
    rcases Store.exists_snapshot_restrict itemPerm with ⟨itemSnapshot, itemsTaken, rfl⟩
    rcases paired _ _ _ (.refl _) usersTaken itemsTaken with ⟨shown, isShown, rows⟩
    rcases (data.columns_of_load stored (.refl _) usersTaken itemsTaken vc).2 shown isShown with
      ⟨names, itemNames⟩
    rw [rowsPaired_iff_subperm (data.sameLength_of_columns usersTaken itemsTaken names itemNames),
      FriendFeedVC.shownLabels, names, itemNames] at rows
    exact rows
  · intro forced friendSnapshot userSnapshot itemSnapshot friendsTaken usersTaken itemsTaken
    rcases data.columns_of_load stored friendsTaken usersTaken itemsTaken vc with
      ⟨succeeds, columns⟩
    rcases Option.isSome_iff_exists.mp (succeeds.mpr forced.1) with ⟨shown, isShown⟩
    rcases columns shown isShown with ⟨names, itemNames⟩
    refine ⟨shown, isShown, ?_⟩
    rw [rowsPaired_iff_subperm (data.sameLength_of_columns usersTaken itemsTaken names itemNames),
      FriendFeedVC.shownLabels, names, itemNames]
    exact data.forall_orders_iff.mpr ((data.counts_iff forced.1).mpr forced) _ _
      usersTaken.restrict_perm itemsTaken.restrict_perm

namespace System

variable {s : System}

/-- The reachable databases have the data of a feed. -/
theorem feedData_reachable {events : List Event}
    (reached : Machine.run (stepNow Event.isSignUp) {} events = some s) : FeedData s.db := by
  have records := recordsComplete_run (fun _ isSignUp => isSignUp) reached
  rcases exists_run_of_run_stepNow reached with ⟨fine, toState⟩
  have complete := records.users.allComplete
  constructor
  · exact fun uid user stored => (complete uid user stored).username
  · exact fun uid user stored => (complete uid user stored).friendList
  · exact fun uid user stored => (complete uid user stored).itemList
  · intro uid itemIds stored itemId itemId_mem
    rw [Store.mem_keys_iff]
    exact (listsSupplied_run toState).stored uid itemIds stored itemId itemId_mem
  · exact itemLists_disjoint_run toState

def annSavesAndFollows : List Event :=
  twoSignUps ++ [.viewDidLoad 0 0 "ann" .addEntry, .viewDidLoad 1 0 "ann" (.userCopy "bob@example.com"),
    .deliver 0 .usersCallback annAndBob, .deliver 1 .getUserInfo annAndBob,
    .deliver 1 .getCurrentUserInfo annAndBob, .press 0 (.save ⟨"Hat", "", "", ""⟩ "hat"),
    .persist 0, .persist 0, .press 1 .follow, .persist 0]

/-- The node `items` after that, listed in the order of creation. -/
def shoesFirst : Collection :=
  [⟨"shoes1", itemAttributes "My Cool Shoes" "None" "M" "blizzard blue"⟩,
    ⟨"shoes2", itemAttributes "My Cool Shoes" "None" "M" "blizzard blue"⟩,
    ⟨"hat", itemAttributes "Hat" "" "" ""⟩].toAList

end System

theorem rowsPaired_iff_labelsForced_annSavesAndFollows :
    let db := ((Machine.run (System.stepNow Event.isSignUp) {}
      System.annSavesAndFollows).get (by decide)).db
    (∀ friendSnapshot userSnapshot itemSnapshot,
      Store.IsSnapshot friendSnapshot (db firUsersNode) →
      Store.IsSnapshot userSnapshot (db firUsersNode) →
      Store.IsSnapshot itemSnapshot (db firItemsNode) →
        ∃ shown, ({} : FriendFeedVC).load "ann" friendSnapshot userSnapshot itemSnapshot =
          some shown ∧ RowsPaired db shown) ↔
    LabelsForced db ["ann", "bob"] := by
  intro db
  exact rowsPaired_iff_labelsForced (System.feedData_reachable (Option.some_get _).symm)
    (show friendListOf db "ann" = some ["ann", "bob"] by decide) {}

/-- The row of `ann` shows the item of `bob` when the items are listed in the order of creation. -/
theorem not_rowsPaired_shoesFirst :
    ∃ db, FeedData db ∧ friendListOf db "ann" = some ["ann", "bob"] ∧
      Store.IsSnapshot System.shoesFirst (db firItemsNode) ∧
      ∃ shown, ({} : FriendFeedVC).load "ann" (db firUsersNode) (db firUsersNode)
        System.shoesFirst = some shown ∧ ¬ RowsPaired db shown := by
  refine ⟨((Machine.run (System.stepNow Event.isSignUp) {}
      System.annSavesAndFollows).get (by decide)).db,
    System.feedData_reachable (Option.some_get _).symm, by decide, by decide, _, rfl, ?_⟩
  rw [rowsPaired_iff_subperm (by decide)]
  decide

end PriceTracker
