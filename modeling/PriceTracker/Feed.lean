import PriceTracker.ItemStore
import PriceTracker.Records

/-!
# The rows of the friend feed

The three reads of the feed are described in terms of the databases they are delivered
from, whatever the order in which the snapshots list their entries. In the reachable
states of the system the feed has one row for every listed friend: latest items of
different friends are different, and they are never removed between two deliveries.
-/

namespace PriceTracker

/-- The last id of a user's item list. -/
def latestItem (db : Database) (uid : String) : Option String :=
  (itemListOf db uid).bind List.getLast?

def itemNameOf (db : Database) (itemId : String) : Option String :=
  (itemRecord db itemId).bind fun item => stringAt item firItemNameNode

theorem exists_itemListOf_of_latestItem {db : Database} {uid itemId : String}
    (latest : latestItem db uid = some itemId) :
    ∃ itemIds, itemListOf db uid = some itemIds ∧ itemId ∈ itemIds := by
  rcases Option.bind_eq_some_iff.mp latest with ⟨itemIds, stored, isLast⟩
  exact ⟨itemIds, stored, List.mem_of_getLast? isLast⟩

/-- Latest items of different users are different when no item is in two lists. -/
theorem nodup_of_map_latestItem {db : Database}
    (disjoint : ∀ first second itemIds otherIds, first ≠ second →
      itemListOf db first = some itemIds → itemListOf db second = some otherIds →
        itemIds.Disjoint otherIds)
    {uids itemIds : List String} (nodup : uids.Nodup)
    (latest : itemIds.map some = uids.map (latestItem db)) : itemIds.Nodup := by
  apply List.Nodup.of_map some
  rw [latest]
  apply nodup.map_on
  intro first first_mem second second_mem same
  have isSome : latestItem db first ∈ itemIds.map some := by
    rw [latest]
    exact List.mem_map_of_mem first_mem
  rcases List.mem_map.mp isSome with ⟨itemId, _, ofFirst⟩
  rcases exists_itemListOf_of_latestItem ofFirst.symm with ⟨firstIds, firstStored, inFirst⟩
  rcases exists_itemListOf_of_latestItem (same.symm.trans ofFirst.symm) with
    ⟨secondIds, secondStored, inSecond⟩
  by_contra different
  exact disjoint first second firstIds secondIds different firstStored secondStored inFirst inSecond

namespace FriendFeedVC

def listedFriends (friendList : List String) (snapshot : Collection) : List String :=
  (Store.restrict friendList snapshot).map Sigma.fst

theorem columns_of_rows {entries : List (Sigma fun _ : String => Record)}
    {rows : List (String × String)}
    (read : entries.map (fun entry => friendRow entry.2) = rows.map some) :
    (rows.map Prod.fst).map some = entries.map (fun entry => stringAt entry.2 firUsernameNode) ∧
      (rows.map Prod.snd).map some = entries.map fun entry =>
        (stringsAt entry.2 firItemListNode).bind List.getLast? := by
  induction entries generalizing rows with
  | nil =>
      have noRows : rows = [] := by simpa using read.symm
      simp [noRows]
  | cons entry entries ih =>
      rcases rows with _ | ⟨row, rows⟩
      · simp at read
      · simp only [List.map_cons, List.cons.injEq] at read
        rcases friendRow_eq_some_iff.mp read.1 with ⟨hasName, itemIds, hasItems, isLast⟩
        rcases ih read.2 with ⟨names, items⟩
        simp [hasName, hasItems, isLast, ← names, ← items]

variable {db : Database} {vc next : FriendFeedVC} {snapshot : Collection}

/-- The first read takes the stored friend list of the signed-in user. -/
theorem getFriendIDs_of_stored {userID : String} {friends : List String}
    (taken : Store.IsSnapshot snapshot (db firUsersNode))
    (stored : friendListOf db userID = some friends) :
    vc.getFriendIDs userID snapshot = some { vc with friendList := friends } := by
  simp [getFriendIDs, readOwnList_of_stored taken stored]

/-- The second read lists the usernames and the latest items of the listed friends. -/
theorem columns_of_getFriendNamesAndRecentItemIDs
    (taken : Store.IsSnapshot snapshot (db firUsersNode)) (present : snapshotExists snapshot = true)
    (read : vc.getFriendNamesAndRecentItemIDs snapshot = some next) :
    next.friendList = vc.friendList ∧ next.recentItemNames = vc.recentItemNames ∧
      next.friendNames.map some = (listedFriends vc.friendList snapshot).map (usernameOf db) ∧
      next.recentItemList.map some = (listedFriends vc.friendList snapshot).map (latestItem db) := by
  rcases (getFriendNamesAndRecentItemIDs_eq_some_iff present).mp read with ⟨rows, readRows, rfl⟩
  rcases columns_of_rows readRows with ⟨names, items⟩
  refine ⟨rfl, rfl, ?_, ?_⟩
  · rw [names, taken.map_restrict fun _ user => stringAt user firUsernameNode]
    rfl
  · rw [items, taken.map_restrict fun _ user => (stringsAt user firItemListNode).bind List.getLast?]
    apply List.map_congr_left
    intro uid _
    rw [latestItem, itemListOf, Option.bind_assoc]
    rfl

/-- The third read lists the names of the stored latest items. -/
theorem names_of_getRecentItemNames (taken : Store.IsSnapshot snapshot (db firItemsNode))
    (present : snapshotExists snapshot = true)
    (read : vc.getRecentItemNames snapshot = some next) :
    next.friendNames = vc.friendNames ∧ next.recentItemList = vc.recentItemList ∧
      next.recentItemNames.map some =
        ((Store.restrict vc.recentItemList snapshot).map Sigma.fst).map (itemNameOf db) := by
  rcases (getRecentItemNames_eq_some_iff present).mp read with ⟨names, readNames, rfl⟩
  refine ⟨rfl, rfl, ?_⟩
  rw [← readNames, taken.map_restrict fun _ item => stringAt item firItemNameNode]
  rfl

end FriendFeedVC

/-- The feed has one row for every listed friend with a record, and the names it shows are
those of the latest items. `users` and `items` are the databases of the last two reads. -/
structure FeedExact (users items : Database) (friendList : List String) (vc : FriendFeedVC) :
    Prop where
  sameLength : vc.friendNames.length = vc.recentItemList.length
  rows : ∃ ks : List String, ks.Nodup ∧
    (∀ uid, uid ∈ ks ↔ uid ∈ friendList ∧ uid ∈ (users firUsersNode).keys) ∧
    vc.friendNames.map some = ks.map (usernameOf users) ∧
    vc.recentItemList.map some = ks.map (latestItem users) ∧ vc.numberOfRows = ks.length
  names : (vc.recentItemNames.map some).Perm (vc.recentItemList.map (itemNameOf items))

/-- The last two reads give an exact feed when no item is in two lists of the first database
and the second one has all the latest items. -/
theorem feedExact_of_reads {users items : Database} {vc filled shown : FriendFeedVC}
    {snapshot itemSnapshot : Collection}
    (disjoint : ∀ first second itemIds otherIds, first ≠ second →
      itemListOf users first = some itemIds → itemListOf users second = some otherIds →
        itemIds.Disjoint otherIds)
    (kept : ∀ uid itemId, latestItem users uid = some itemId → (itemRecord items itemId).isSome)
    (taken : Store.IsSnapshot snapshot (users firUsersNode))
    (present : snapshotExists snapshot = true)
    (itemsTaken : Store.IsSnapshot itemSnapshot (items firItemsNode))
    (itemsPresent : snapshotExists itemSnapshot = true)
    (fill : vc.getFriendNamesAndRecentItemIDs snapshot = some filled)
    (finish : filled.getRecentItemNames itemSnapshot = some shown) :
    FeedExact users items vc.friendList shown := by
  rcases FriendFeedVC.columns_of_getFriendNamesAndRecentItemIDs taken present fill with
    ⟨_, _, names, latest⟩
  rcases FriendFeedVC.names_of_getRecentItemNames itemsTaken itemsPresent finish with
    ⟨sameNames, sameItems, itemNames⟩
  have nodup : (FriendFeedVC.listedFriends vc.friendList snapshot).Nodup :=
    Store.nodup_keys_restrict
  have stored : filled.recentItemList ⊆ itemSnapshot.keys := by
    intro itemId itemId_mem
    have isLatest : some itemId ∈ filled.recentItemList.map some := List.mem_map_of_mem itemId_mem
    rw [latest] at isLatest
    rcases List.mem_map.mp isLatest with ⟨uid, _, ofUser⟩
    rw [Store.mem_keys_iff, itemsTaken.lookup]
    exact kept uid itemId ofUser
  have itemsNodup := nodup_of_map_latestItem disjoint nodup latest
  have shownNames : (shown.recentItemNames.map some).Perm
      (shown.recentItemList.map (itemNameOf items)) := by
    rw [itemNames, sameItems]
    exact (Store.keys_restrict_perm itemsNodup stored).map _
  have namesLength := congrArg List.length names
  have itemsLength := congrArg List.length latest
  have shownLength := shownNames.length_eq
  rw [← sameNames] at names namesLength
  rw [← sameItems] at latest itemsLength
  simp only [List.length_map] at namesLength itemsLength shownLength
  refine ⟨namesLength.trans itemsLength.symm,
    ⟨_, nodup, ?_, names, latest, shownLength.trans itemsLength⟩, shownNames⟩
  intro uid
  rw [FriendFeedVC.listedFriends, Store.mem_keys_restrict_iff, taken.keys.mem_iff]

namespace System

variable {first second third : System}

theorem itemRecord_runNow {now : Event → Bool} {before after : List Event}
    (toFirst : Machine.run (stepNow now) {} before = some first)
    (toSecond : Machine.run (stepNow now) first after = some second) {itemId : String}
    {item : Record} (stored : itemRecord first.db itemId = some item) :
    itemRecord second.db itemId = some item := by
  rcases exists_run_of_run_stepNow toFirst with ⟨fineBefore, fineToFirst⟩
  rcases exists_run_of_run_stepNow toSecond with ⟨fineAfter, fineToSecond⟩
  exact itemRecord_run fineToFirst fineToSecond stored

theorem latestItem_stored {now : Event → Bool} {events : List Event}
    (reached : Machine.run (stepNow now) {} events = some first) {uid itemId : String}
    (latest : latestItem first.db uid = some itemId) : (itemRecord first.db itemId).isSome := by
  rcases exists_run_of_run_stepNow reached with ⟨fine, toFirst⟩
  rcases exists_itemListOf_of_latestItem latest with ⟨itemIds, stored, itemId_mem⟩
  exact (listsSupplied_run toFirst).stored uid itemIds stored itemId itemId_mem

/-- With sign-ups at once, the second read finds all it needs on any page. -/
theorem isSome_getFriendNamesAndRecentItemIDs_of_records (records : second.RecordsComplete)
    {snapshot : Collection} (taken : Store.IsSnapshot snapshot (second.db firUsersNode))
    (vc : FriendFeedVC) : (vc.getFriendNamesAndRecentItemIDs snapshot).isSome := by
  rw [FriendFeedVC.isSome_getFriendNamesAndRecentItemIDs_iff]
  rintro ⟨uid, user⟩ entry_mem _
  have stored : userRecord second.db uid = some user := by
    rw [userRecord, ← taken.lookup]
    exact Store.mem_entries_iff.mp entry_mem
  have complete := records.users.allComplete uid user stored
  exact FriendFeedVC.isSome_friendRow_iff.mpr ⟨complete.username, complete.itemList⟩

/-- An account has a latest item. -/
theorem exists_latestItem_of_records (records : first.RecordsComplete) {uid : String}
    (account : uid ∈ first.accounts) : ∃ itemId, latestItem first.db uid = some itemId := by
  rcases records.users.complete uid account with ⟨user, stored, complete⟩
  rcases complete.itemList with ⟨itemIds, hasItems, nonempty⟩
  refine ⟨itemIds.getLast nonempty, ?_⟩
  simp [latestItem, itemListOf, stored, hasItems, List.getLast?_eq_some_getLast nonempty]

/-- In every run with sign-ups at once, the three reads of the feed of an account succeed, each
delivered in a later state than the one before, and give an exact feed. -/
theorem feedExact_of_deliveries {toFirst toSecond toThird : List Event}
    (reachedFirst : Machine.run (stepNow Event.isSignUp) {} toFirst = some first)
    (reachedSecond : Machine.run (stepNow Event.isSignUp) first toSecond = some second)
    (reachedThird : Machine.run (stepNow Event.isSignUp) second toThird = some third)
    {userID : String} (account : userID ∈ first.accounts)
    {friendSnapshot userSnapshot itemSnapshot : Collection}
    (friendsTaken : Store.IsSnapshot friendSnapshot (first.db firUsersNode))
    (usersTaken : Store.IsSnapshot userSnapshot (second.db firUsersNode))
    (itemsTaken : Store.IsSnapshot itemSnapshot (third.db firItemsNode)) (vc : FriendFeedVC) :
    ∃ friendList loaded filled shown, friendListOf first.db userID = some friendList ∧
      vc.getFriendIDs userID friendSnapshot = some loaded ∧ loaded.friendList = friendList ∧
      loaded.getFriendNamesAndRecentItemIDs userSnapshot = some filled ∧
      filled.getRecentItemNames itemSnapshot = some shown ∧
      FeedExact second.db third.db friendList shown := by
  have signUpsNow : SignUpsNow Event.isSignUp := fun _ isSignUp => isSignUp
  have toSecondState := Machine.run_trans reachedFirst reachedSecond
  have toThirdState := Machine.run_trans toSecondState reachedThird
  have records := recordsComplete_run signUpsNow reachedFirst
  have secondRecords := recordsComplete_run signUpsNow toSecondState
  have thirdRecords := recordsComplete_run signUpsNow toThirdState
  rcases exists_run_of_run_stepNow toSecondState with ⟨fineSecond, fineToSecond⟩
  rcases exists_run_of_run_stepNow toThirdState with ⟨fineThird, fineToThird⟩
  -- the first read finds the record of the account
  rcases records.users.complete userID account with ⟨user, isUser, complete⟩
  rcases complete.friendList with ⟨friendList, hasFriends, _⟩
  have stored : friendListOf first.db userID = some friendList := by
    simp [friendListOf, isUser, hasFriends]
  have load : vc.getFriendIDs userID friendSnapshot = some { vc with friendList } :=
    FriendFeedVC.getFriendIDs_of_stored friendsTaken stored
  -- the second one finds complete records only
  have laterAccount := accounts_subset_runNow reachedSecond account
  rcases Option.isSome_iff_exists.mp
    (isSome_getFriendNamesAndRecentItemIDs_of_records secondRecords usersTaken
      { vc with friendList }) with ⟨filled, fill⟩
  rcases secondRecords.users.complete userID laterAccount with ⟨laterUser, isLaterUser, _⟩
  have present : snapshotExists userSnapshot = true := by
    have found : userSnapshot.lookup userID = some laterUser := usersTaken.lookup userID ▸ isLaterUser
    simp [snapshotExists, Store.entries_ne_nil_of_lookup found]
  -- the third one finds complete items only, and there is at least one
  have shows : (filled.getRecentItemNames itemSnapshot).isSome :=
    FriendFeedVC.isSome_getRecentItemNames
      (complete_entries (itemsComplete_run fineToThird) itemsTaken)
  rcases Option.isSome_iff_exists.mp shows with ⟨shown, finish⟩
  have itemsPresent : snapshotExists itemSnapshot = true := by
    rcases exists_latestItem_of_records thirdRecords
      (accounts_subset_runNow reachedThird laterAccount) with ⟨itemId, latest⟩
    rcases Option.isSome_iff_exists.mp (latestItem_stored toThirdState latest) with ⟨item, isItem⟩
    have found : itemSnapshot.lookup itemId = some item := itemsTaken.lookup itemId ▸ isItem
    simp [snapshotExists, Store.entries_ne_nil_of_lookup found]
  refine ⟨friendList, _, filled, shown, stored, load, rfl, fill, finish, ?_⟩
  refine feedExact_of_reads (itemLists_disjoint_run fineToSecond) ?_ usersTaken present
    itemsTaken itemsPresent fill finish
  intro uid itemId latest
  rcases Option.isSome_iff_exists.mp (latestItem_stored toSecondState latest) with ⟨item, isItem⟩
  simp [itemRecord_runNow toSecondState reachedThird isItem]

def annSaves : List Event :=
  [.viewDidLoad 0 0 "ann" .addEntry, .deliver 0 .usersCallback annAndBob,
    .press 0 (.save ⟨"Hat", "", "", ""⟩ "hat"), .persist 0, .persist 0]

theorem feedExact_saveBetweenReads :
    let first := (Machine.run (stepNow Event.isSignUp) {} twoSignUps).get (by decide)
    let second := (Machine.run (stepNow Event.isSignUp) first annSaves).get (by decide)
    ∃ friendList loaded filled shown, friendListOf first.db "ann" = some friendList ∧
      ({} : FriendFeedVC).getFriendIDs "ann" (first.db firUsersNode) = some loaded ∧
      loaded.friendList = friendList ∧
      loaded.getFriendNamesAndRecentItemIDs (first.db firUsersNode) = some filled ∧
      filled.getRecentItemNames (second.db firItemsNode) = some shown ∧
      FeedExact first.db second.db friendList shown := by
  intro first second
  have reachedSecond : Machine.run (stepNow Event.isSignUp) first annSaves = some second :=
    (Option.some_get _).symm
  exact feedExact_of_deliveries (Option.some_get _).symm (Machine.run_nil first) reachedSecond
    (by decide) (.refl _) (.refl _) (.refl _) {}

end System

end PriceTracker
