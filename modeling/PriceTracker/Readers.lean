import PriceTracker.ItemStore

/-!
# Readers of half-created accounts

The four writes of a sign-up take effect one after the other, so a reader may find a user
record without some of its fields, and a cut-off account keeps such a record for good. This
file says which fields each callback forces. A run is free of failures exactly when each
callback is delivered from a database that has them; reads of `items` never fail.
-/

namespace PriceTracker

/-- The fields of `users` that a callback forces. A read of an empty node forces nothing. -/
def Page.Finds (db : Database) (userID : String) : Page → Callback → Prop
  | .addEntry _, .usersCallback | .profile _, .getUserItemID =>
      snapshotExists (db firUsersNode) = true → (itemListOf db userID).isSome
  | .userCopy _, .getCurrentUserInfo | .friendFeed _, .getFriendIDs =>
      snapshotExists (db firUsersNode) = true → (friendListOf db userID).isSome
  | .userCopy vc, .getUserInfo =>
      ∀ uid user, userRecord db uid = some user → UserCopyVC.Readable vc.userEmail user
  | .user vc, .getUserInfo =>
      snapshotExists (db firUsersNode) = true → ∃ user, userRecord db vc.uid = some user ∧
        (stringAt user firUsernameNode).isSome ∧ (stringsAt user firFriendListNode).isSome ∧
        (stringsAt user firItemListNode).isSome
  | .friendFeed vc, .getFriendNamesAndRecentItemIDs =>
      ∀ uid user, userRecord db uid = some user → uid ∈ vc.friendList →
        (stringAt user firUsernameNode).isSome ∧
          ∃ itemIds, stringsAt user firItemListNode = some itemIds ∧ itemIds ≠ []
  | .peopleSearch _, .getUserEmails =>
      ∀ uid user, userRecord db uid = some user → (stringAt user firEmailNode).isSome
  | _, _ => True

theorem forall_entries_iff {db : Database} {snapshot : Collection}
    (taken : Store.IsSnapshot snapshot (db firUsersNode)) (holds : String → Record → Prop) :
    (∀ entry ∈ snapshot.entries, holds entry.1 entry.2) ↔
      ∀ uid user, userRecord db uid = some user → holds uid user := by
  constructor
  · intro every uid user stored
    apply every ⟨uid, user⟩
    rw [Store.mem_entries_iff, taken.lookup]
    exact stored
  · rintro every ⟨uid, user⟩ entry_mem
    rw [Store.mem_entries_iff, taken.lookup] at entry_mem
    exact every uid user entry_mem

/-- A callback succeeds exactly when the database has what it forces. -/
theorem Page.isSome_callback_iff {db : Database} (complete : System.ItemsComplete db)
    {page : Page} {userID : String} {callback : Callback} {snapshot : Collection}
    (taken : Store.IsSnapshot snapshot (db callback.node)) :
    (page.callback userID snapshot callback).isSome ↔ page.Finds db userID callback := by
  have ownList : ∀ {usersSnapshot : Collection} {field : String} {current : List String},
      Store.IsSnapshot usersSnapshot (db firUsersNode) →
      ((readOwnList usersSnapshot userID field current).isSome ↔
        (snapshotExists (db firUsersNode) = true →
          ((userRecord db userID).bind fun user => stringsAt user field).isSome)) := by
    intro usersSnapshot field current usersTaken
    rw [isSome_readOwnList_iff, snapshotExists_eq usersTaken, usersTaken.lookup]
    rfl
  cases page <;> cases callback <;> simp only [Page.callback, Page.Finds, Option.isSome_map,
    Option.isSome_some]
  case addEntry.usersCallback vc =>
    rw [AddEntryVC.usersCallback, Option.isSome_map]
    exact ownList taken
  case userCopy.getUserInfo vc =>
    rw [UserCopyVC.isSome_getUserInfo_iff]
    exact forall_entries_iff taken fun _ user => UserCopyVC.Readable vc.userEmail user
  case userCopy.getCurrentUserInfo vc =>
    rw [UserCopyVC.getCurrentUserInfo, Option.isSome_map]
    exact ownList taken
  case userCopy.getItems vc =>
    simp [UserCopyVC.isSome_getItems (System.complete_entries complete taken)]
  case user.getUserInfo vc =>
    rw [UserVC.isSome_getUserInfo_iff, snapshotExists_eq taken, taken.lookup]
    rfl
  case user.getItems vc =>
    simp [UserVC.isSome_getItems (System.complete_entries complete taken)]
  case friendFeed.getFriendIDs vc =>
    rw [FriendFeedVC.getFriendIDs, Option.isSome_map]
    exact ownList taken
  case friendFeed.getFriendNamesAndRecentItemIDs vc =>
    rw [FriendFeedVC.isSome_getFriendNamesAndRecentItemIDs_iff]
    simp only [FriendFeedVC.isSome_friendRow_iff]
    exact forall_entries_iff taken fun uid user => uid ∈ vc.friendList →
      (stringAt user firUsernameNode).isSome ∧
        ∃ itemIds, stringsAt user firItemListNode = some itemIds ∧ itemIds ≠ []
  case friendFeed.getRecentItemNames vc =>
    simp [FriendFeedVC.isSome_getRecentItemNames (System.complete_entries complete taken)]
  case profile.getUserItemID vc =>
    rw [ProfileVC.getUserItemID, Option.isSome_map]
    exact ownList taken
  case profile.setItems vc =>
    simp [ProfileVC.isSome_setItems (System.complete_entries complete taken)]
  case peopleSearch.getUserEmails vc =>
    rw [PeopleSearchVC.isSome_getUserEmails_iff]
    exact forall_entries_iff taken fun _ user => (stringAt user firEmailNode).isSome

namespace System

variable {s next : System} {event : Event}

def NoCrash (s : System) : Prop :=
  ∀ page session, s.sessions page = some session → session.status ≠ .crashed

/-- A delivered callback finds what it forces. -/
def Served (s : System) : Event → Prop
  | .deliver page callback _ =>
      ∀ session ∈ s.running page, session.page.Finds s.db session.userID callback
  | _ => True

theorem noCrash_setSession_iff {page : Nat} {session : Session}
    (before : ∀ old, s.sessions page = some old → old.status ≠ .crashed) :
    (s.setSession page session).NoCrash ↔ s.NoCrash ∧ session.status ≠ .crashed := by
  constructor
  · intro noCrash
    refine ⟨?_, noCrash page session (by rw [sessions_setSession, if_pos rfl])⟩
    intro other old isOpen
    by_cases same : other = page
    · subst same
      exact before old isOpen
    · apply noCrash other old
      rw [sessions_setSession, if_neg same]
      exact isOpen
  · rintro ⟨noCrash, isFine⟩ other old isOpen
    rw [sessions_setSession] at isOpen
    split_ifs at isOpen with same
    · simp only [Option.some.injEq] at isOpen
      exact isOpen ▸ isFine
    · exact noCrash other old isOpen

theorem status_of_running {page : Nat} {session : Session}
    (isRunning : s.running page = some session) (old : Session)
    (isOpen : s.sessions page = some old) : old.status ≠ .crashed := by
  rcases running_eq_some_iff.mp isRunning with ⟨isSession, runs⟩
  rw [isSession, Option.some.injEq] at isOpen
  subst isOpen
  simp [runs]

theorem status_deliver_iff {session : Session} {callback : Callback} {snapshot : Collection}
    (runs : session.status = .running) :
    (session.deliver callback snapshot).status ≠ .crashed ↔
      (session.page.callback session.userID snapshot callback).isSome := by
  cases ran : session.page.callback session.userID snapshot callback <;>
    simp [Session.deliver, ran, runs]

/-- A step crashes no page exactly when none has crashed and a delivered callback is served. -/
theorem noCrash_step_iff (complete : ItemsComplete s.db) (stepped : s.step event = some next) :
    next.NoCrash ↔ s.NoCrash ∧ s.Served event := by
  cases event with
  | signUp client uid newItemId userName userEmail =>
      rcases step_signUp stepped with ⟨_, _, _, rfl⟩
      exact (and_iff_left trivial).symm
  | viewDidLoad target client userID screen =>
      rcases step_viewDidLoad stepped with ⟨isNew, _, rfl⟩
      rw [noCrash_setSession_iff (by simp [isNew])]
      simp [Served]
  | viewWillAppear target =>
      rcases step_viewWillAppear stepped with ⟨session, isRunning, rfl⟩
      rw [noCrash_setSession_iff (status_of_running isRunning)]
      simp [Served, (running_eq_some_iff.mp isRunning).2]
  | deliver target callback snapshot =>
      rcases step_deliver stepped with ⟨session, isRunning, _, taken, rfl⟩
      rw [noCrash_setSession_iff (status_of_running isRunning),
        status_deliver_iff (running_eq_some_iff.mp isRunning).2,
        Page.isSome_callback_iff complete taken]
      simp [Served, isRunning]
  | press target button =>
      rcases step_press stepped with ⟨session, pressed, writes, isRunning, _, _, rfl⟩
      have replaced : (s.setSession target { session with page := pressed }).NoCrash ↔
          s.NoCrash ∧ s.Served (.press target button) := by
        rw [noCrash_setSession_iff (status_of_running isRunning)]
        simp [Served, (running_eq_some_iff.mp isRunning).2]
      exact replaced
  | persist client =>
      rcases step_persist stepped with ⟨write, rest, _, rfl⟩
      exact (and_iff_left trivial).symm
  | stop client =>
      rw [step_stop stepped]
      refine Iff.trans ?_ (and_iff_left trivial).symm
      constructor
      · intro noCrash page session isOpen crashed
        apply noCrash page (session.stop client) (by simp [isOpen])
        simp [Session.stop, crashed]
      · intro noCrash page stopped isOpen
        rcases Option.map_eq_some_iff.mp isOpen with ⟨session, wasOpen, rfl⟩
        have fine := noCrash page session wasOpen
        unfold Session.stop
        split_ifs
        · simp
        · exact fine

/-- A run of any clients, with sign-ups cut off or observed anywhere, is free of failures exactly
when each callback is delivered from a database that has the fields it forces. -/
theorem noCrash_iff_served {events : List Event} (reached : Machine.run step {} events = some s) :
    s.NoCrash ↔ Machine.EachStep step (fun _ => Served) {} events := by
  refine Machine.run_induction (motive := fun events s =>
    s.NoCrash ↔ Machine.EachStep step (fun _ => Served) {} events) ?_ ?_ reached
  · simp [NoCrash]
  · intro events state event next toState ih stepped
    rw [Machine.eachStep_concat toState, noCrash_step_iff (itemsComplete_run toState) stepped, ih]

/-- The sign-up of `ann` is cut off after its first write. From another device `ann` saves an
item before the snapshot arrives. `bob` signs up and searches for people. -/
def searchAfterCutOff : List Event :=
  [.signUp 0 "ann" "shoes1" "Ann" "ann@example.com", .persist 0, .stop 0,
    .viewDidLoad 0 1 "ann" .addEntry, .press 0 (.save ⟨"Hat", "", "", ""⟩ "hat"),
    .persist 1, .persist 1,
    .signUp 2 "bob" "shoes2" "Bob" "bob@example.com",
    .persist 2, .persist 2, .persist 2, .persist 2,
    .viewDidLoad 1 2 "bob" .peopleSearch,
    .deliver 1 .getUserEmails
      [⟨"ann", (∅ : Record).insert firItemListNode (.strings ["hat"])⟩,
        ⟨"bob", ((dictionary [(firUsernameNode, "Bob"), (firEmailNode, "bob@example.com")]).insert
          firFriendListNode (.strings ["bob"])).insert firItemListNode
            (.strings ["shoes2"])⟩].toAList]

/-- The record that `ann` has got in this way has no email, and the search of `bob` crashes. -/
theorem not_noCrash_searchAfterCutOff :
    ∃ s, Machine.run step {} searchAfterCutOff = some s ∧ ¬ s.NoCrash := by
  refine ⟨_, (Option.some_get (by decide)).symm, ?_⟩
  intro noCrash
  have crashed : (((Machine.run step {} searchAfterCutOff).get (by decide)).sessions 1).map
      Session.status = some .crashed := by
    decide
  rcases Option.map_eq_some_iff.mp crashed with ⟨session, isOpen, isCrashed⟩
  exact noCrash 1 session isOpen isCrashed

end System

end PriceTracker
