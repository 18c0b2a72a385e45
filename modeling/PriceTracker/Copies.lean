import PriceTracker.System

/-!
# Where the lists come from

A list of item ids or of friends exists in three kinds of places: in a stored record, in a
write that has not taken effect, and in an open page. This file says once what a callback,
a press and a step of the system can do to these copies: a step copies a list from one
place to another, starts from the empty list, or appends one id to a list of a page. The
invariants about lists are derived from it.
-/

namespace PriceTracker

namespace Page

variable {page next : Page} {userID : String} {snapshot : Collection} {callback : Callback}

/-- The reads that a page requests. -/
def callbacks : Page → List Callback
  | .addEntry _ => [.usersCallback]
  | .userCopy _ => [.getUserInfo, .getCurrentUserInfo, .getItems]
  | .user _ => [.getUserInfo, .getItems]
  | .friendFeed _ => [.getFriendIDs, .getFriendNamesAndRecentItemIDs, .getRecentItemNames]
  | .profile _ => [.getUserItemID, .setItems]
  | .peopleSearch _ => [.getUserEmails]

/-- What a callback does to its page: it takes a list of the own record, some fields of the
records of users, or the listed items. A page ignores the callbacks of other pages. -/
inductive CallbackEffect (userID : String) (snapshot : Collection) :
    Page → Callback → Page → Prop where
  | entryIds {vc : AddEntryVC} {itemIds : List String}
      (own : readOwnList snapshot userID firItemListNode vc.itemIds = some itemIds) :
      CallbackEffect userID snapshot (.addEntry vc) .usersCallback (.addEntry { vc with itemIds })
  | userCopyInfo {vc after : UserCopyVC} (read : vc.getUserInfo snapshot = some after) :
      CallbackEffect userID snapshot (.userCopy vc) .getUserInfo (.userCopy after)
  | userCopyFriends {vc : UserCopyVC} {myFriendList : List String}
      (own : readOwnList snapshot userID firFriendListNode vc.myFriendList = some myFriendList) :
      CallbackEffect userID snapshot (.userCopy vc) .getCurrentUserInfo
        (.userCopy { vc with myFriendList })
  | userCopyItems {vc : UserCopyVC} {items : List Item}
      (read : readItems vc.itemList vc.items snapshot = some items) :
      CallbackEffect userID snapshot (.userCopy vc) .getItems (.userCopy { vc with items })
  | userInfo {vc after : UserVC} (read : vc.getUserInfo snapshot = some after) :
      CallbackEffect userID snapshot (.user vc) .getUserInfo (.user after)
  | userItems {vc : UserVC} {items : List Item}
      (read : readItems vc.itemList vc.items snapshot = some items) :
      CallbackEffect userID snapshot (.user vc) .getItems (.user { vc with items })
  | feedFriends {vc : FriendFeedVC} {friendList : List String}
      (own : readOwnList snapshot userID firFriendListNode vc.friendList = some friendList) :
      CallbackEffect userID snapshot (.friendFeed vc) .getFriendIDs
        (.friendFeed { vc with friendList })
  | feedNames {vc after : FriendFeedVC}
      (read : vc.getFriendNamesAndRecentItemIDs snapshot = some after) :
      CallbackEffect userID snapshot (.friendFeed vc) .getFriendNamesAndRecentItemIDs
        (.friendFeed after)
  | feedItems {vc after : FriendFeedVC} (read : vc.getRecentItemNames snapshot = some after) :
      CallbackEffect userID snapshot (.friendFeed vc) .getRecentItemNames (.friendFeed after)
  | profileIds {vc : ProfileVC} {IDList : List String}
      (own : readOwnList snapshot userID firItemListNode vc.IDList = some IDList) :
      CallbackEffect userID snapshot (.profile vc) .getUserItemID (.profile { vc with IDList })
  | profileItems {vc : ProfileVC} {ItemList : List Item}
      (read : readItems vc.IDList vc.ItemList snapshot = some ItemList) :
      CallbackEffect userID snapshot (.profile vc) .setItems (.profile { vc with ItemList })
  | searchEmails {vc after : PeopleSearchVC} (read : vc.getUserEmails snapshot = some after) :
      CallbackEffect userID snapshot (.peopleSearch vc) .getUserEmails (.peopleSearch after)
  | ignored {page : Page} {callback : Callback} (isForeign : callback ∉ page.callbacks) :
      CallbackEffect userID snapshot page callback page

theorem callback_effect (ran : page.callback userID snapshot callback = some next) :
    CallbackEffect userID snapshot page callback next := by
  cases page <;> cases callback <;>
    simp only [Page.callback, Option.map_eq_some_iff, Option.some.injEq] at ran
  case addEntry.usersCallback vc =>
    rcases ran with ⟨after, read, rfl⟩
    rcases Option.map_eq_some_iff.mp read with ⟨itemIds, own, rfl⟩
    exact .entryIds own
  case userCopy.getUserInfo vc =>
    rcases ran with ⟨after, read, rfl⟩
    exact .userCopyInfo read
  case userCopy.getCurrentUserInfo vc =>
    rcases ran with ⟨after, read, rfl⟩
    rcases Option.map_eq_some_iff.mp read with ⟨myFriendList, own, rfl⟩
    exact .userCopyFriends own
  case userCopy.getItems vc =>
    rcases ran with ⟨after, read, rfl⟩
    rcases Option.map_eq_some_iff.mp read with ⟨items, isRead, rfl⟩
    exact .userCopyItems isRead
  case user.getUserInfo vc =>
    rcases ran with ⟨after, read, rfl⟩
    exact .userInfo read
  case user.getItems vc =>
    rcases ran with ⟨after, read, rfl⟩
    rcases Option.map_eq_some_iff.mp read with ⟨items, isRead, rfl⟩
    exact .userItems isRead
  case friendFeed.getFriendIDs vc =>
    rcases ran with ⟨after, read, rfl⟩
    rcases Option.map_eq_some_iff.mp read with ⟨friendList, own, rfl⟩
    exact .feedFriends own
  case friendFeed.getFriendNamesAndRecentItemIDs vc =>
    rcases ran with ⟨after, read, rfl⟩
    exact .feedNames read
  case friendFeed.getRecentItemNames vc =>
    rcases ran with ⟨after, read, rfl⟩
    exact .feedItems read
  case profile.getUserItemID vc =>
    rcases ran with ⟨after, read, rfl⟩
    rcases Option.map_eq_some_iff.mp read with ⟨IDList, own, rfl⟩
    exact .profileIds own
  case profile.setItems vc =>
    rcases ran with ⟨after, read, rfl⟩
    rcases Option.map_eq_some_iff.mp read with ⟨ItemList, isRead, rfl⟩
    exact .profileItems isRead
  case peopleSearch.getUserEmails vc =>
    rcases ran with ⟨after, read, rfl⟩
    exact .searchEmails read
  all_goals
    subst ran
    exact .ignored (by simp [callbacks])

/-- A callback leaves the local item list as it is or takes the one of the own record. -/
theorem itemIds_callback (ran : page.callback userID snapshot callback = some next) :
    next.itemIds = page.itemIds ∨
      (callback.node = firUsersNode ∧ ∃ user, snapshot.lookup userID = some user ∧
        stringsAt user firItemListNode = some next.itemIds) := by
  cases callback_effect ran with
  | entryIds own => exact (readOwnList_cases own).imp_right fun found => ⟨rfl, found⟩
  | _ => exact Or.inl rfl

/-- A callback leaves the local friend list as it is or takes the one of some record, which
is the own one or has all the fields that a page shows. -/
theorem friends_callback (ran : page.callback userID snapshot callback = some next) :
    next.friends = page.friends ∨
      (callback.node = firUsersNode ∧ ∃ uid user, snapshot.lookup uid = some user ∧
        (uid = userID ∨ HasUserInfo user) ∧
        stringsAt user firFriendListNode = some next.friends) := by
  cases callback_effect ran with
  | userCopyInfo read => exact Or.inl (UserCopyVC.infoFrom_getUserInfo read).myFriendList
  | userCopyFriends own =>
      rcases readOwnList_cases own with same | ⟨user, isUser, hasFriends⟩
      · exact Or.inl same
      · exact Or.inr ⟨rfl, userID, user, isUser, Or.inl rfl, hasFriends⟩
  | @userInfo vc after read =>
      rcases (UserVC.friendList_getUserInfo read).2 with same | ⟨user, found, hasInfo, hasFriends⟩
      · exact Or.inl same
      · exact Or.inr ⟨rfl, vc.uid, user, found, Or.inr hasInfo, hasFriends⟩
  | feedFriends own =>
      rcases readOwnList_cases own with same | ⟨user, isUser, hasFriends⟩
      · exact Or.inl same
      · exact Or.inr ⟨rfl, userID, user, isUser, Or.inl rfl, hasFriends⟩
  | feedNames read => exact Or.inl (FriendFeedVC.friendList_getFriendNamesAndRecentItemIDs read)
  | feedItems read => exact Or.inl (FriendFeedVC.friendList_getRecentItemNames read)
  | _ => exact Or.inl rfl

/-- A callback leaves the id that Follow adds as it is or takes the key of a record that has
all the fields that a page shows. -/
theorem followed_callback (ran : page.callback userID snapshot callback = some next) :
    next.followed = page.followed ∨
      (callback.node = firUsersNode ∧
        ∃ user, snapshot.lookup next.followed = some user ∧ HasUserInfo user) := by
  cases callback_effect ran with
  | userCopyInfo read =>
      rcases UserCopyVC.hasUserInfo_getUserInfo read with same | found
      · exact Or.inl same
      · exact Or.inr ⟨rfl, found⟩
  | userInfo read => exact Or.inl (UserVC.friendList_getUserInfo read).1
  | _ => exact Or.inl rfl

variable {pressed : Page} {writes : List Write}

/-- What a press does: Save appends the new key to the list and writes the item and the list,
Follow appends the id of the page to the list and writes it, unless the id is listed already. -/
inductive PressEffect (userID : String) : Page → Button → Page → List Write → Prop where
  | save {vc : AddEntryVC} {form : EntryForm} {newItemId : String} :
      PressEffect userID (.addEntry vc) (.save form newItemId)
        (.addEntry (vc.save userID newItemId form).1) (vc.save userID newItemId form).2
  | userCopyListed {vc : UserCopyVC} (listed : vc.friendID ∈ vc.myFriendList) :
      PressEffect userID (.userCopy vc) .follow
        (.userCopy { vc with followUnfollowButton := followingTitle }) []
  | userCopyAdded {vc : UserCopyVC} (unlisted : vc.friendID ∉ vc.myFriendList) :
      PressEffect userID (.userCopy vc) .follow
        (.userCopy { vc with myFriendList := vc.myFriendList ++ [vc.friendID],
                             followUnfollowButton := followingTitle })
        [.updateFriendList userID (vc.myFriendList ++ [vc.friendID])]
  | userListed {vc : UserVC} (listed : vc.friendIDFromFriendFeed ∈ vc.friendList) :
      PressEffect userID (.user vc) .follow
        (.user { vc with followUnfollowButton := followingTitle }) []
  | userAdded {vc : UserVC} (unlisted : vc.friendIDFromFriendFeed ∉ vc.friendList) :
      PressEffect userID (.user vc) .follow
        (.user { vc with friendList := vc.friendList ++ [vc.friendIDFromFriendFeed],
                         followUnfollowButton := followingTitle })
        [.updateFriendList userID (vc.friendList ++ [vc.friendIDFromFriendFeed])]

theorem press_effect {button : Button}
    (hasButton : page.press userID button = some (pressed, writes)) :
    PressEffect userID page button pressed writes := by
  cases page <;> cases button <;>
    simp only [Page.press, reduceCtorEq, Option.some.injEq] at hasButton
  case addEntry.save vc form newItemId =>
    simp only [Prod.map, Prod.mk.injEq] at hasButton
    rcases hasButton with ⟨rfl, rfl⟩
    exact .save
  case userCopy.follow vc =>
    by_cases listed : vc.friendID ∈ vc.myFriendList
    · rw [UserCopyVC.follow_of_mem listed] at hasButton
      simp only [Prod.map, Prod.mk.injEq] at hasButton
      rcases hasButton with ⟨rfl, rfl⟩
      exact .userCopyListed listed
    · rw [UserCopyVC.follow_of_notMem listed] at hasButton
      simp only [Prod.map, Prod.mk.injEq] at hasButton
      rcases hasButton with ⟨rfl, rfl⟩
      exact .userCopyAdded listed
  case user.follow vc =>
    by_cases listed : vc.friendIDFromFriendFeed ∈ vc.friendList
    · rw [UserVC.follow_of_mem listed] at hasButton
      simp only [Prod.map, Prod.mk.injEq] at hasButton
      rcases hasButton with ⟨rfl, rfl⟩
      exact .userListed listed
    · rw [UserVC.follow_of_notMem listed] at hasButton
      simp only [Prod.map, Prod.mk.injEq] at hasButton
      rcases hasButton with ⟨rfl, rfl⟩
      exact .userAdded listed

/-- Save appends the new key to the local list and writes the item before the list. -/
theorem press_save {form : EntryForm} {newItemId : String}
    (hasButton : page.press userID (.save form newItemId) = some (pressed, writes)) :
    pressed.itemIds = page.itemIds ++ [newItemId] ∧ pressed.friends = page.friends ∧
      ∃ itemAttr, CompleteItem itemAttr ∧
        writes = [.setItem newItemId itemAttr,
          .updateItemList userID (page.itemIds ++ [newItemId])] := by
  cases press_effect hasButton with
  | save => exact ⟨rfl, rfl, _, completeItem_itemAttributes _ _ _ _, rfl⟩

/-- Follow writes nothing when the id is listed already, and else the extended list. -/
theorem press_follow (hasButton : page.press userID .follow = some (pressed, writes)) :
    pressed.itemIds = page.itemIds ∧ pressed.followed = page.followed ∧
      ((page.followed ∈ page.friends ∧ pressed.friends = page.friends ∧ writes = []) ∨
        (page.followed ∉ page.friends ∧ pressed.friends = page.friends ++ [page.followed] ∧
          writes = [.updateFriendList userID (page.friends ++ [page.followed])])) := by
  cases press_effect hasButton with
  | userCopyListed listed => exact ⟨rfl, rfl, Or.inl ⟨listed, rfl, rfl⟩⟩
  | userCopyAdded unlisted => exact ⟨rfl, rfl, Or.inr ⟨unlisted, rfl, rfl⟩⟩
  | userListed listed => exact ⟨rfl, rfl, Or.inl ⟨listed, rfl, rfl⟩⟩
  | userAdded unlisted => exact ⟨rfl, rfl, Or.inr ⟨unlisted, rfl, rfl⟩⟩

theorem lists_viewDidLoad (screen : Screen) :
    screen.viewDidLoad.1.itemIds = [] ∧ screen.viewDidLoad.1.friends = [] := by
  cases screen <;> exact ⟨rfl, rfl⟩

end Page

namespace System

variable {s next : System} {event : Event}

/-- How a session of the next state arises. -/
inductive SessionOrigin (s : System) (event : Event) (page : Nat) (session : Session) : Prop where
  | kept (before : Session) (isOpen : s.sessions page = some before)
      (sameUser : session.userID = before.userID) (sameClient : session.client = before.client)
      (samePage : session.page = before.page)
      (stillRunning : session.status = .running → before.status = .running)
  | opened (client : Nat) (userID : String) (screen : Screen)
      (isEvent : event = .viewDidLoad page client userID screen) (account : userID ∈ s.accounts)
      (isNew : session = { client, userID, page := screen.viewDidLoad.1,
                           pending := screen.viewDidLoad.2 })
  | delivered (before : Session) (callback : Callback) (snapshot : Collection)
      (isEvent : event = .deliver page callback snapshot) (isRunning : s.running page = some before)
      (taken : Store.IsSnapshot snapshot (s.db callback.node))
      (sameUser : session.userID = before.userID) (sameClient : session.client = before.client)
      (ran : before.page.callback before.userID snapshot callback = some session.page)
  | pressed (before : Session) (button : Button) (writes : List Write)
      (isEvent : event = .press page button) (isRunning : s.running page = some before)
      (sameUser : session.userID = before.userID) (sameClient : session.client = before.client)
      (hasButton : before.page.press before.userID button = some (session.page, writes))

theorem sessions_setSession (s : System) (page other : Nat) (session : Session) :
    (s.setSession page session).sessions other =
      if other = page then some session else s.sessions other := by
  by_cases same : other = page
  · subst same
    simp [setSession]
  · simp [setSession, same]

@[simp]
theorem sessions_issue (s : System) (client : Nat) (writes : List Write) :
    (s.issue client writes).sessions = s.sessions := rfl

theorem SessionOrigin.of_same {page : Nat} {session : Session}
    (isOpen : s.sessions page = some session) : SessionOrigin s event page session :=
  .kept session isOpen rfl rfl rfl id

/-- Every session of the next state was there, has just been opened, or has just run a
callback or a press. -/
theorem sessionOrigin_step (stepped : s.step event = some next) {page : Nat} {session : Session}
    (isOpen : next.sessions page = some session) : SessionOrigin s event page session := by
  cases event with
  | signUp client uid newItemId userName userEmail =>
      rcases step_signUp stepped with ⟨_, _, _, rfl⟩
      exact .of_same isOpen
  | viewDidLoad target client userID screen =>
      rcases step_viewDidLoad stepped with ⟨_, account, rfl⟩
      rw [sessions_setSession] at isOpen
      split_ifs at isOpen with same
      · simp only [Option.some.injEq] at isOpen
        subst same
        exact .opened client userID screen rfl account isOpen.symm
      · exact .of_same isOpen
  | viewWillAppear target =>
      rcases step_viewWillAppear stepped with ⟨before, isRunning, rfl⟩
      rw [sessions_setSession] at isOpen
      split_ifs at isOpen with same
      · simp only [Option.some.injEq] at isOpen
        subst same isOpen
        exact .kept before (running_eq_some_iff.mp isRunning).1 rfl rfl rfl id
      · exact .of_same isOpen
  | deliver target callback snapshot =>
      rcases step_deliver stepped with ⟨before, isRunning, _, taken, rfl⟩
      rw [sessions_setSession] at isOpen
      split_ifs at isOpen with same
      · simp only [Option.some.injEq] at isOpen
        subst same isOpen
        cases ran : before.page.callback before.userID snapshot callback with
        | some loaded =>
            exact .delivered before callback snapshot rfl isRunning taken (by simp [Session.deliver, ran])
              (by simp [Session.deliver, ran]) (by simp [Session.deliver, ran])
        | none =>
            exact .kept before (running_eq_some_iff.mp isRunning).1 (by simp [Session.deliver, ran])
              (by simp [Session.deliver, ran]) (by simp [Session.deliver, ran])
              (by simp [Session.deliver, ran])
      · exact .of_same isOpen
  | press target button =>
      rcases step_press stepped with ⟨before, pressed, writes, isRunning, hasButton, _, rfl⟩
      rw [sessions_issue, sessions_setSession] at isOpen
      split_ifs at isOpen with same
      · simp only [Option.some.injEq] at isOpen
        subst same isOpen
        exact .pressed before button writes rfl isRunning rfl rfl hasButton
      · exact .of_same isOpen
  | persist client =>
      rcases step_persist stepped with ⟨write, rest, _, rfl⟩
      exact .of_same isOpen
  | stop client =>
      rw [step_stop stepped] at isOpen
      rcases Option.map_eq_some_iff.mp isOpen with ⟨before, wasOpen, rfl⟩
      unfold Session.stop
      split_ifs with stops
      · exact .kept before wasOpen rfl rfl rfl (by simp)
      · exact .of_same wasOpen

/-- A session stays on its client and signed in as the user it was opened for. -/
theorem SessionOrigin.signedIn {page : Nat} {session : Session}
    (origin : SessionOrigin s event page session) :
    (∃ before, s.sessions page = some before ∧ session.userID = before.userID ∧
        session.client = before.client) ∨
      ∃ screen, event = .viewDidLoad page session.client session.userID screen ∧
        session.userID ∈ s.accounts := by
  rcases origin with
    ⟨before, wasOpen, sameUser, sameClient, _, _⟩ |
    ⟨client, userID, screen, isEvent, account, rfl⟩ |
    ⟨before, _, _, _, wasRunning, _, sameUser, sameClient, _⟩ |
    ⟨before, _, _, _, wasRunning, sameUser, sameClient, _⟩
  · exact Or.inl ⟨before, wasOpen, sameUser, sameClient⟩
  · exact Or.inr ⟨screen, isEvent, account⟩
  · exact Or.inl ⟨before, (running_eq_some_iff.mp wasRunning).1, sameUser, sameClient⟩
  · exact Or.inl ⟨before, (running_eq_some_iff.mp wasRunning).1, sameUser, sameClient⟩

/-- The writes that an event issues, with the client that issues them. -/
inductive Issues (s : System) : Event → Nat → List Write → Prop where
  | signUp {client : Nat} {uid newItemId userName userEmail : String}
      (newAccount : uid ∉ s.accounts) (named : uid ≠ "") :
      Issues s (.signUp client uid newItemId userName userEmail) client
        (signUpWrites uid newItemId userName userEmail)
  | press {page : Nat} {session : Session} {button : Button} {after : Page} {writes : List Write}
      (isRunning : s.running page = some session)
      (hasButton : session.page.press session.userID button = some (after, writes)) :
      Issues s (.press page button) session.client writes

/-- What a step does to the database and to the writes that wait. -/
inductive Effect (s : System) (event : Event) (next : System) : Prop where
  | quiet (sameDb : next.db = s.db) (sameQueue : next.queue = s.queue)
  | issued (client : Nat) (writes : List Write) (issues : s.Issues event client writes)
      (sameDb : next.db = s.db)
      (extended : next.queue = Function.update s.queue client (s.queue client ++ writes))
  | persisted (client : Nat) (write : Write) (rest : List Write)
      (isEvent : event = .persist client) (queued : s.queue client = write :: rest)
      (applied : next.db = write.apply s.db)
      (shortened : next.queue = Function.update s.queue client rest)
  | stopped (client : Nat) (isEvent : event = .stop client) (sameDb : next.db = s.db)
      (emptied : next.queue = Function.update s.queue client [])

theorem effect_step (stepped : s.step event = some next) : Effect s event next := by
  cases event with
  | signUp client uid newItemId userName userEmail =>
      rcases step_signUp stepped with ⟨newAccount, named, _, rfl⟩
      exact .issued client _ (.signUp newAccount named) rfl rfl
  | viewDidLoad target client userID screen =>
      rcases step_viewDidLoad stepped with ⟨_, _, rfl⟩
      exact .quiet rfl rfl
  | viewWillAppear target =>
      rcases step_viewWillAppear stepped with ⟨before, isRunning, rfl⟩
      exact .quiet rfl rfl
  | deliver target callback snapshot =>
      rcases step_deliver stepped with ⟨before, isRunning, _, _, rfl⟩
      exact .quiet rfl rfl
  | press target button =>
      rcases step_press stepped with ⟨before, pressed, writes, isRunning, hasButton, _, rfl⟩
      exact .issued before.client writes (.press isRunning hasButton) rfl rfl
  | persist client =>
      rcases step_persist stepped with ⟨write, rest, queued, rfl⟩
      exact .persisted client write rest rfl queued rfl rfl
  | stop client =>
      rw [step_stop stepped]
      exact .stopped client rfl rfl rfl

/-- Every write that waits in the next state was waiting, or has just been issued. -/
theorem issues_of_mem_queue (stepped : s.step event = some next) {client : Nat} {write : Write}
    (waiting : write ∈ next.queue client) :
    write ∈ s.queue client ∨ ∃ writes, s.Issues event client writes ∧ write ∈ writes := by
  rcases effect_step stepped with ⟨_, sameQueue⟩ | ⟨issuer, writes, issues, _, extended⟩ |
    ⟨issuer, first, rest, _, queued, _, shortened⟩ | ⟨issuer, _, _, emptied⟩
  · exact Or.inl (sameQueue ▸ waiting)
  · rw [extended] at waiting
    by_cases same : client = issuer
    · subst same
      rw [Function.update_self] at waiting
      rcases List.mem_append.mp waiting with old | isNew
      · exact Or.inl old
      · exact Or.inr ⟨writes, issues, isNew⟩
    · rw [Function.update_of_ne same] at waiting
      exact Or.inl waiting
  · rw [shortened] at waiting
    by_cases same : client = issuer
    · subst same
      rw [Function.update_self] at waiting
      exact Or.inl (queued ▸ List.mem_cons_of_mem _ waiting)
    · rw [Function.update_of_ne same] at waiting
      exact Or.inl waiting
  · rw [emptied] at waiting
    by_cases same : client = issuer
    · subst same
      simp at waiting
    · rw [Function.update_of_ne same] at waiting
      exact Or.inl waiting

/-- The key that an event takes from `childByAutoId`, with the account it is taken for. -/
def newKey (s : System) : Event → Option (String × String)
  | .signUp _ uid newItemId _ _ => some (uid, newItemId)
  | .press page (.save _ newItemId) =>
      (s.running page).map fun session => (session.userID, newItemId)
  | _ => none

/-- The item lists that are issued: a sign-up starts a list with its new key, Save appends its new
key to the list of its page. -/
theorem itemListWritten_issued {client : Nat} {writes : List Write}
    (issues : s.Issues event client writes) {write : Write} (issued : write ∈ writes) {uid : String}
    {itemIds : List String} (written : write.itemListWritten = some (uid, itemIds)) :
    ∃ before key, s.newKey event = some (uid, key) ∧ itemIds = before ++ [key] ∧
      (before = [] ∨ ∃ page session, s.sessions page = some session ∧ session.userID = uid ∧
        session.page.itemIds = before) := by
  rcases issues with @⟨_, owner, newItemId, userName, userEmail, _, _⟩ |
    @⟨page, session, button, after, writes, isRunning, hasButton⟩
  · simp only [signUpWrites, List.mem_cons, List.not_mem_nil, or_false] at issued
    rcases issued with rfl | rfl | rfl | rfl <;>
      simp only [Write.itemListWritten, reduceCtorEq, Option.some.injEq, Prod.mk.injEq] at written
    rcases written with ⟨rfl, rfl⟩
    exact ⟨[], newItemId, rfl, rfl, Or.inl rfl⟩
  · have isOpen := (running_eq_some_iff.mp isRunning).1
    cases button with
    | save form newItemId =>
        rcases (Page.press_save hasButton).2.2 with ⟨itemAttr, _, rfl⟩
        simp only [List.mem_cons, List.not_mem_nil, or_false] at issued
        rcases issued with rfl | rfl <;>
          simp only [Write.itemListWritten, reduceCtorEq, Option.some.injEq, Prod.mk.injEq] at written
        rcases written with ⟨rfl, rfl⟩
        exact ⟨session.page.itemIds, newItemId, by simp [newKey, isRunning], rfl,
          Or.inr ⟨page, session, isOpen, rfl, rfl⟩⟩
    | follow =>
        rcases (Page.press_follow hasButton).2.2 with ⟨_, _, rfl⟩ | ⟨_, _, rfl⟩
        · simp at issued
        · simp only [List.mem_singleton] at issued
          subst issued
          simp [Write.itemListWritten] at written

/-- The friend lists that are issued: a sign-up starts a list with the new account, Follow appends
the id of its page. -/
theorem friendListWritten_issued {client : Nat} {writes : List Write}
    (issues : s.Issues event client writes) {write : Write} (issued : write ∈ writes) {uid : String}
    {friends : List String} (written : write.friendListWritten = some (uid, friends)) :
    (∃ client newItemId userName userEmail,
      event = .signUp client uid newItemId userName userEmail ∧ friends = [uid]) ∨
      ∃ page session, event = .press page .follow ∧ s.running page = some session ∧
        session.page.followed ∉ session.page.friends ∧
        friends = session.page.friends ++ [session.page.followed] := by
  rcases issues with @⟨_, owner, newItemId, userName, userEmail, _, _⟩ |
    @⟨page, session, button, after, writes, isRunning, hasButton⟩
  · simp only [signUpWrites, List.mem_cons, List.not_mem_nil, or_false] at issued
    rcases issued with rfl | rfl | rfl | rfl <;>
      simp only [Write.friendListWritten, reduceCtorEq, Option.some.injEq, Prod.mk.injEq] at written
    rcases written with ⟨rfl, rfl⟩
    exact Or.inl ⟨client, newItemId, userName, userEmail, rfl, rfl⟩
  · cases button with
    | save form newItemId =>
        rcases (Page.press_save hasButton).2.2 with ⟨itemAttr, _, rfl⟩
        simp only [List.mem_cons, List.not_mem_nil, or_false] at issued
        rcases issued with rfl | rfl <;> simp [Write.friendListWritten] at written
    | follow =>
        rcases (Page.press_follow hasButton).2.2 with ⟨_, _, rfl⟩ | ⟨unlisted, _, rfl⟩
        · simp at issued
        · simp only [List.mem_singleton] at issued
          subst issued
          simp only [Write.friendListWritten, Option.some.injEq, Prod.mk.injEq] at written
          exact Or.inr ⟨page, session, rfl, isRunning, unlisted, written.2.symm⟩

theorem db_step (stepped : s.step event = some next) :
    next.db = s.db ∨ ∃ client write rest, event = .persist client ∧
      s.queue client = write :: rest ∧ next.db = write.apply s.db := by
  rcases effect_step stepped with ⟨sameDb, _⟩ | ⟨_, _, _, sameDb, _⟩ |
    ⟨client, write, rest, isEvent, queued, applied, _⟩ | ⟨_, _, sameDb, _⟩
  · exact Or.inl sameDb
  · exact Or.inl sameDb
  · exact Or.inr ⟨client, write, rest, isEvent, queued, applied⟩
  · exact Or.inl sameDb

/-- A new key was never used before, and is used from then on. -/
theorem keys_step (stepped : s.step event = some next) :
    next.keys = ((s.newKey event).map Prod.snd).toList ++ s.keys ∧
      ∀ owner key, s.newKey event = some (owner, key) → key ∉ s.keys := by
  cases event with
  | signUp client uid newItemId userName userEmail =>
      rcases step_signUp stepped with ⟨_, _, fresh, rfl⟩
      refine ⟨rfl, ?_⟩
      rintro owner key taken
      simp only [newKey, Option.some.injEq, Prod.mk.injEq] at taken
      exact taken.2 ▸ fresh
  | viewDidLoad target client userID screen =>
      rcases step_viewDidLoad stepped with ⟨_, _, rfl⟩
      exact ⟨rfl, by simp [newKey]⟩
  | viewWillAppear target =>
      rcases step_viewWillAppear stepped with ⟨before, isRunning, rfl⟩
      exact ⟨rfl, by simp [newKey]⟩
  | deliver target callback snapshot =>
      rcases step_deliver stepped with ⟨before, isRunning, _, _, rfl⟩
      exact ⟨rfl, by simp [newKey]⟩
  | press target button =>
      rcases step_press stepped with ⟨before, pressed, writes, isRunning, _, fresh, rfl⟩
      cases button with
      | save form newItemId =>
          refine ⟨by simp [newKey, isRunning, Button.newKey, issue, setSession], ?_⟩
          intro owner key taken
          simp only [newKey, isRunning, Option.map_some, Option.some.injEq, Prod.mk.injEq] at taken
          exact taken.2 ▸ fresh newItemId rfl
      | follow => exact ⟨rfl, by simp [newKey]⟩
  | persist client =>
      rcases step_persist stepped with ⟨write, rest, _, rfl⟩
      exact ⟨rfl, by simp [newKey]⟩
  | stop client =>
      rw [step_stop stepped]
      exact ⟨rfl, by simp [newKey]⟩

theorem keys_subset_step (stepped : s.step event = some next) : s.keys ⊆ next.keys := by
  rw [(keys_step stepped).1]
  exact List.subset_append_right _ _

theorem newKey_mem_step (stepped : s.step event = some next) {owner key : String}
    (taken : s.newKey event = some (owner, key)) : key ∈ next.keys := by
  simp [(keys_step stepped).1, taken]

theorem accounts_step (stepped : s.step event = some next)
    (notSignUp : event.isSignUp = false) : next.accounts = s.accounts := by
  cases event with
  | signUp client uid newItemId userName userEmail => simp [Event.isSignUp] at notSignUp
  | viewDidLoad target client userID screen =>
      rcases step_viewDidLoad stepped with ⟨_, _, rfl⟩
      rfl
  | viewWillAppear target =>
      rcases step_viewWillAppear stepped with ⟨before, isRunning, rfl⟩
      rfl
  | deliver target callback snapshot =>
      rcases step_deliver stepped with ⟨before, isRunning, _, _, rfl⟩
      rfl
  | press target button =>
      rcases step_press stepped with ⟨before, pressed, writes, isRunning, _, _, rfl⟩
      rfl
  | persist client =>
      rcases step_persist stepped with ⟨write, rest, _, rfl⟩
      rfl
  | stop client =>
      rw [step_stop stepped]

theorem accounts_subset_step (stepped : s.step event = some next) : s.accounts ⊆ next.accounts := by
  cases isSignUp : event.isSignUp with
  | true =>
      cases event with
      | signUp client uid newItemId userName userEmail =>
          rcases step_signUp stepped with ⟨_, _, _, rfl⟩
          exact List.subset_cons_self _ _
      | _ => simp [Event.isSignUp] at isSignUp
  | false =>
      rw [accounts_step stepped isSignUp]
      exact List.Subset.refl _

/-! ## Copies of item lists and of friend lists -/

/-- Every waiting write has the shape in which the controllers issue it. -/
def QueuesWellFormed (s : System) : Prop :=
  ∀ client, ∀ write ∈ s.queue client, write.WellFormed

theorem queuesWellFormed_step (wellFormed : s.QueuesWellFormed)
    (stepped : s.step event = some next) : next.QueuesWellFormed := by
  intro client write waiting
  rcases issues_of_mem_queue stepped waiting with old | ⟨writes, issues, issued⟩
  · exact wellFormed client write old
  rcases issues with _ | @⟨page, session, button, after, writes, _, hasButton⟩
  · exact wellFormed_signUpWrites _ _ _ _ write issued
  · cases button with
    | save form newItemId =>
        rcases (Page.press_save hasButton).2.2 with ⟨itemAttr, complete, rfl⟩
        simp only [List.mem_cons, List.not_mem_nil, or_false] at issued
        rcases issued with rfl | rfl
        · exact complete
        · simp [Write.WellFormed]
    | follow =>
        rcases (Page.press_follow hasButton).2.2 with ⟨_, _, rfl⟩ | ⟨_, _, rfl⟩
        · simp at issued
        · simp only [List.mem_singleton] at issued
          subst issued
          simp [Write.WellFormed]

/-- A copy of the item list of an account. -/
inductive ItemListAt (s : System) (uid : String) (itemIds : List String) : Prop where
  | stored (holds : itemListOf s.db uid = some itemIds)
  | queued (client : Nat) (write : Write) (waiting : write ∈ s.queue client)
      (written : write.itemListWritten = some (uid, itemIds))
  | onPage (page : Nat) (session : Session) (isOpen : s.sessions page = some session)
      (sameUser : session.userID = uid) (holds : session.page.itemIds = itemIds)

/-- A copy of a friend list. The page that shows another user holds that user's list. -/
inductive FriendListAt (s : System) (friends : List String) : Prop where
  | stored (uid : String) (holds : friendListOf s.db uid = some friends)
  | queued (client : Nat) (write : Write) (waiting : write ∈ s.queue client) (uid : String)
      (written : write.friendListWritten = some (uid, friends))
  | onPage (page : Nat) (session : Session) (isOpen : s.sessions page = some session)
      (holds : session.page.friends = friends)

/-- A step copies item lists of an account, starts an empty one, or appends a new key of
the account to one. -/
theorem itemListAt_step (wellFormed : s.QueuesWellFormed) (stepped : s.step event = some next)
    {uid : String} {itemIds : List String} (copied : next.ItemListAt uid itemIds) :
    s.ItemListAt uid itemIds ∨ itemIds = [] ∨
      ∃ before key, s.newKey event = some (uid, key) ∧ itemIds = before ++ [key] ∧
        (before = [] ∨ s.ItemListAt uid before) := by
  rcases copied with holds | ⟨client, write, waiting, written⟩ |
    ⟨page, session, isOpen, sameUser, holds⟩
  · -- stored lists: only a write that takes effect changes them
    rcases db_step stepped with same | ⟨client, write, rest, _, queued, changed⟩
    · exact Or.inl (.stored (same ▸ holds))
    · have waiting : write ∈ s.queue client := by simp [queued]
      rw [changed] at holds
      rcases itemListOf_apply_cases (wellFormed client write waiting) holds with old | written
      · exact Or.inl (.stored old)
      · exact Or.inl (.queued client write waiting written)
  · -- waiting writes
    rcases issues_of_mem_queue stepped waiting with old | ⟨writes, issues, issued⟩
    · exact Or.inl (.queued client write old written)
    · rcases itemListWritten_issued issues issued written with ⟨before, key, isNew, same, isOld⟩
      refine Or.inr (Or.inr ⟨before, key, isNew, same, isOld.imp_right ?_⟩)
      rintro ⟨page, session, isOpen, sameUser, holds⟩
      exact .onPage page session isOpen sameUser holds
  · -- pages
    rcases sessionOrigin_step stepped isOpen with
      ⟨before, wasOpen, keepsUser, _, samePage, _⟩ |
      ⟨client, userID, screen, _, _, rfl⟩ |
      ⟨before, callback, snapshot, _, isRunning, taken, keepsUser, _, ran⟩ |
      ⟨before, button, writes, isEvent, isRunning, keepsUser, _, hasButton⟩
    · exact Or.inl (.onPage page before wasOpen (keepsUser ▸ sameUser) (samePage ▸ holds))
    · right; left
      rw [← holds]
      exact (Page.lists_viewDidLoad screen).1
    · have wasOpen := (running_eq_some_iff.mp isRunning).1
      rcases Page.itemIds_callback ran with same | ⟨isUsers, user, found, list⟩
      · exact Or.inl (.onPage page before wasOpen (keepsUser ▸ sameUser) (same ▸ holds))
      · refine Or.inl (.stored ?_)
        rw [taken.lookup, isUsers, ← keepsUser, sameUser] at found
        rw [itemListOf, userRecord, found, Option.bind_some, list, holds]
    · have wasOpen := (running_eq_some_iff.mp isRunning).1
      cases button with
      | save form newItemId =>
          refine Or.inr (Or.inr ⟨before.page.itemIds, newItemId, ?_, ?_, Or.inr ?_⟩)
          · simp [newKey, isEvent, isRunning, ← keepsUser, sameUser]
          · rw [← holds, (Page.press_save hasButton).1]
          · exact .onPage page before wasOpen (keepsUser ▸ sameUser) rfl
      | follow =>
          rw [(Page.press_follow hasButton).1] at holds
          exact Or.inl (.onPage page before wasOpen (keepsUser ▸ sameUser) holds)

/-- A step copies friend lists, starts an empty one or the one of a new account, or appends
the id that Follow adds to the list of its page. -/
theorem friendListAt_step (wellFormed : s.QueuesWellFormed) (stepped : s.step event = some next)
    {friends : List String} (copied : next.FriendListAt friends) :
    s.FriendListAt friends ∨ friends = [] ∨
      (∃ client uid newItemId userName userEmail,
        event = .signUp client uid newItemId userName userEmail ∧ friends = [uid]) ∨
      ∃ page session, event = .press page .follow ∧ s.running page = some session ∧
        session.page.followed ∉ session.page.friends ∧
        friends = session.page.friends ++ [session.page.followed] := by
  rcases copied with ⟨uid, holds⟩ | ⟨client, write, waiting, uid, written⟩ |
    ⟨page, session, isOpen, holds⟩
  · -- stored lists
    rcases db_step stepped with same | ⟨client, write, rest, _, queued, changed⟩
    · exact Or.inl (.stored uid (same ▸ holds))
    · have waiting : write ∈ s.queue client := by simp [queued]
      rw [changed] at holds
      rcases friendListOf_apply_cases (wellFormed client write waiting) holds with old | written
      · exact Or.inl (.stored uid old)
      · exact Or.inl (.queued client write waiting uid written)
  · -- waiting writes
    rcases issues_of_mem_queue stepped waiting with old | ⟨writes, issues, issued⟩
    · exact Or.inl (.queued client write old uid written)
    · rcases friendListWritten_issued issues issued written with
        ⟨client, newItemId, userName, userEmail, isEvent, same⟩ | followed
      · exact Or.inr (Or.inr (Or.inl ⟨client, uid, newItemId, userName, userEmail, isEvent, same⟩))
      · exact Or.inr (Or.inr (Or.inr followed))
  · -- pages
    rcases sessionOrigin_step stepped isOpen with
      ⟨before, wasOpen, _, _, samePage, _⟩ | ⟨client, userID, screen, _, _, rfl⟩ |
      ⟨before, callback, snapshot, _, isRunning, taken, _, _, ran⟩ |
      ⟨before, button, writes, isEvent, isRunning, _, _, hasButton⟩
    · exact Or.inl (.onPage page before wasOpen (samePage ▸ holds))
    · right; left
      rw [← holds]
      exact (Page.lists_viewDidLoad screen).2
    · have wasOpen := (running_eq_some_iff.mp isRunning).1
      rcases Page.friends_callback ran with same | ⟨isUsers, uid, user, found, _, list⟩
      · exact Or.inl (.onPage page before wasOpen (same ▸ holds))
      · refine Or.inl (.stored uid ?_)
        rw [taken.lookup, isUsers] at found
        rw [friendListOf, userRecord, found, Option.bind_some, list, holds]
    · have wasOpen := (running_eq_some_iff.mp isRunning).1
      cases button with
      | save form newItemId =>
          rw [(Page.press_save hasButton).2.1] at holds
          exact Or.inl (.onPage page before wasOpen holds)
      | follow =>
          rcases (Page.press_follow hasButton).2.2 with ⟨_, same, _⟩ | ⟨unlisted, extended, _⟩
          · rw [same] at holds
            exact Or.inl (.onPage page before wasOpen holds)
          · rw [extended] at holds
            exact Or.inr (Or.inr (Or.inr
              ⟨page, before, isEvent, isRunning, unlisted, holds.symm⟩))

end System

end PriceTracker
