import PriceTracker.Records

/-!
# Friends that are stored

The search page holds the id of the shown user only once `getUserInfo` has found it; until
then its `friendID` is the empty string, and Follow writes that string to the friend list.
When every Follow is pressed after the id was found, the friend lists name stored users
only, and every row of the feed leads to a record.
-/

namespace PriceTracker

/-- Every id in a friend list is a key of `users`. -/
def FriendsStored (db : Database) : Prop :=
  ∀ uid friends, friendListOf db uid = some friends →
    ∀ friend ∈ friends, friend ∈ (db firUsersNode).keys

def Page.isUserCopy : Page → Bool
  | .userCopy _ => true
  | _ => false

theorem Page.exists_userCopy {page : Page} (isSearch : page.isUserCopy = true) :
    ∃ vc, page = .userCopy vc := by
  cases page with
  | userCopy vc => exact ⟨vc, rfl⟩
  | _ => simp [Page.isUserCopy] at isSearch

theorem Page.isUserCopy_callback {page next : Page} {userID : String} {snapshot : Collection}
    {callback : Callback} (ran : page.callback userID snapshot callback = some next) :
    next.isUserCopy = page.isUserCopy := by
  cases Page.callback_effect ran <;> rfl

theorem Page.isUserCopy_press {page pressed : Page} {userID : String} {button : Button}
    {writes : List Write} (hasButton : page.press userID button = some (pressed, writes)) :
    pressed.isUserCopy = page.isUserCopy := by
  cases Page.press_effect hasButton <;> rfl

theorem Page.followed_press {page pressed : Page} {userID : String} {button : Button}
    {writes : List Write} (hasButton : page.press userID button = some (pressed, writes))
    (isSearch : pressed.isUserCopy = true) : pressed.followed = page.followed := by
  cases button with
  | save form newItemId =>
      rw [Page.isUserCopy_press hasButton] at isSearch
      rcases Page.exists_userCopy isSearch with ⟨vc, rfl⟩
      simp [Page.press] at hasButton
  | follow => exact (Page.press_follow hasButton).2.1

theorem Screen.followed_viewDidLoad {screen : Screen}
    (isSearch : screen.viewDidLoad.1.isUserCopy = true) : screen.viewDidLoad.1.followed = "" := by
  cases screen with
  | userCopy emailFromPeopleSearch => rfl
  | _ => simp [Screen.viewDidLoad, Page.isUserCopy] at isSearch

namespace System

variable {s next : System} {event : Event}

/-- Follow is pressed on search pages. -/
def FollowsOnUserCopy (s : System) : Event → Prop
  | .press page .follow => ∀ session ∈ s.running page, session.page.isUserCopy = true
  | _ => True

/-- Follow is pressed once the page holds an id. -/
def FollowsAfterLookup (s : System) : Event → Prop
  | .press page .follow => ∀ session ∈ s.running page, session.page.followed ≠ ""
  | _ => True

instance (s : System) : DecidablePred s.FollowsOnUserCopy
  | .press page .follow =>
      inferInstanceAs (Decidable (∀ session ∈ s.running page, session.page.isUserCopy = true))
  | .press _ (.save _ _) | .signUp _ _ _ _ _ | .viewDidLoad _ _ _ _ | .viewWillAppear _
  | .deliver _ _ _ | .persist _ | .stop _ => .isTrue trivial

instance (s : System) : DecidablePred s.FollowsAfterLookup
  | .press page .follow =>
      inferInstanceAs (Decidable (∀ session ∈ s.running page, session.page.followed ≠ ""))
  | .press _ (.save _ _) | .signUp _ _ _ _ _ | .viewDidLoad _ _ _ _ | .viewWillAppear _
  | .deliver _ _ _ | .persist _ | .stop _ => .isTrue trivial

/-- All copies of friend lists name accounts, and so do the search pages. -/
structure FriendsAreAccounts (s : System) : Prop where
  listed : ∀ friends, s.FriendListAt friends → friends ⊆ s.accounts
  shown : ∀ page session, s.sessions page = some session → session.page.isUserCopy = true →
    session.page.followed = "" ∨ session.page.followed ∈ s.accounts

theorem friendsAreAccounts_initial : ({} : System).FriendsAreAccounts := by
  constructor
  · intro friends copied
    exact absurd copied not_friendListAt_initial
  · intro page session isOpen
    simp at isOpen

/-- A search page gets the id that it shows from a stored record. -/
theorem shown_step (records : s.RecordsComplete) (friends : s.FriendsAreAccounts)
    (stepped : s.step event = some next) {page : Nat} {session : Session}
    (isOpen : next.sessions page = some session) (isSearch : session.page.isUserCopy = true) :
    session.page.followed = "" ∨ session.page.followed ∈ next.accounts := by
  have grows := accounts_subset_step stepped
  rcases sessionOrigin_step stepped isOpen with
    ⟨before, wasOpen, _, _, samePage, _⟩ | ⟨client, userID, screen, _, _, rfl⟩ |
    ⟨before, callback, snapshot, _, wasRunning, taken, _, _, ran⟩ |
    ⟨before, button, writes, _, wasRunning, _, _, hasButton⟩
  · rw [samePage] at isSearch ⊢
    exact (friends.shown page before wasOpen isSearch).imp_right fun isAccount => grows isAccount
  · exact Or.inl (Screen.followed_viewDidLoad isSearch)
  · rcases Page.followed_callback ran with same | ⟨isUsers, user, found, _⟩
    · rw [Page.isUserCopy_callback ran] at isSearch
      rw [same]
      exact (friends.shown page before (running_eq_some_iff.mp wasRunning).1 isSearch).imp_right
        fun isAccount => grows isAccount
    · rw [taken.lookup, isUsers] at found
      have stored : (userRecord s.db session.page.followed).isSome := Option.isSome_of_mem found
      exact Or.inr (grows (records.users.isAccount _ stored))
  · rw [Page.followed_press hasButton isSearch]
    rw [Page.isUserCopy_press hasButton] at isSearch
    exact (friends.shown page before (running_eq_some_iff.mp wasRunning).1 isSearch).imp_right
      fun isAccount => grows isAccount

/-- Follow adds an account to a list of accounts, if the page has found one. -/
theorem friendsAreAccounts_step (wellFormed : s.QueuesWellFormed) (records : s.RecordsComplete)
    (friends : s.FriendsAreAccounts) (onUserCopy : s.FollowsOnUserCopy event)
    (afterLookup : s.FollowsAfterLookup event) (stepped : s.step event = some next) :
    next.FriendsAreAccounts := by
  have grows := accounts_subset_step stepped
  constructor
  · intro list copied
    rcases friendListAt_step wellFormed stepped copied with
      old | rfl | ⟨client, uid, newItemId, userName, userEmail, rfl, rfl⟩ |
      ⟨page, session, rfl, isRunning, _, rfl⟩
    · exact List.Subset.trans (friends.listed list old) grows
    · exact List.nil_subset _
    · rcases step_signUp stepped with ⟨_, _, _, rfl⟩
      simp [issue]
    · have isOpen := (running_eq_some_iff.mp isRunning).1
      have found : session.page.followed ∈ s.accounts :=
        (friends.shown page session isOpen (onUserCopy session isRunning)).resolve_left
          (afterLookup session isRunning)
      have listed := friends.listed session.page.friends (.onPage page session isOpen rfl)
      refine List.append_subset.mpr ⟨List.Subset.trans listed grows, ?_⟩
      simpa using grows found
  · intro page session isOpen isSearch
    exact shown_step records friends stepped isOpen isSearch

/-- A write that takes effect moves a list from an outbox to the database. -/
theorem friendsAreAccounts_persist (wellFormed : s.QueuesWellFormed)
    (friends : s.FriendsAreAccounts) {client : Nat}
    (stepped : s.step (.persist client) = some next) : next.FriendsAreAccounts := by
  have sameAccounts := accounts_step stepped rfl
  constructor
  · intro list copied
    rw [sameAccounts]
    rcases friendListAt_step wellFormed stepped copied with
      old | rfl | ⟨_, _, _, _, _, isEvent, _⟩ | ⟨_, _, isEvent, _⟩
    · exact friends.listed list old
    · exact List.nil_subset _
    · cases isEvent
    · cases isEvent
  · intro page session isOpen
    rw [sameAccounts]
    rcases step_persist stepped with ⟨write, rest, _, rfl⟩
    exact friends.shown page session isOpen

theorem friendsAreAccounts_stepNow {now : Event → Bool} (wellFormed : s.QueuesWellFormed)
    (records : s.RecordsComplete) (friends : s.FriendsAreAccounts)
    (onUserCopy : s.FollowsOnUserCopy event) (afterLookup : s.FollowsAfterLookup event)
    (stepped : s.stepNow now event = some next) : next.FriendsAreAccounts := by
  have both : next.QueuesWellFormed ∧ next.FriendsAreAccounts := by
    refine invariant_stepNow
      (motive := fun s => s.QueuesWellFormed ∧ s.FriendsAreAccounts) ?_ ?_ stepped
    · rintro state client after ⟨wellFormed, friends⟩ taken
      exact ⟨queuesWellFormed_step wellFormed taken,
        friendsAreAccounts_persist wellFormed friends taken⟩
    · intro after taken
      exact ⟨queuesWellFormed_step wellFormed taken,
        friendsAreAccounts_step wellFormed records friends onUserCopy afterLookup taken⟩
  exact both.2

theorem friendsAreAccounts_run {now : Event → Bool} (signUpsNow : SignUpsNow now)
    {events : List Event} (reached : Machine.run (stepNow now) {} events = some s)
    (onUserCopy : Machine.EachStep (stepNow now) (fun _ => FollowsOnUserCopy) {} events)
    (afterLookup : Machine.EachStep (stepNow now) (fun _ => FollowsAfterLookup) {} events) :
    s.FriendsAreAccounts := by
  refine Machine.run_induction (motive := fun events s =>
    Machine.EachStep (stepNow now) (fun _ => FollowsOnUserCopy) {} events →
      Machine.EachStep (stepNow now) (fun _ => FollowsAfterLookup) {} events → s.FriendsAreAccounts)
    (fun _ _ => friendsAreAccounts_initial) ?_ reached onUserCopy afterLookup
  intro events state event next toState ih stepped onUserCopy afterLookup
  rcases (Machine.eachStep_concat toState event).mp onUserCopy with ⟨onUserCopyBefore, onUserCopy⟩
  rcases (Machine.eachStep_concat toState event).mp afterLookup with ⟨afterLookupBefore, afterLookup⟩
  exact friendsAreAccounts_stepNow (queuesWellFormed_runNow toState)
    (recordsComplete_run signUpsNow toState) (ih onUserCopyBefore afterLookupBefore) onUserCopy
    afterLookup stepped

theorem tapped_mem {vc tapped : FriendFeedVC} {row : Nat}
    (tap : vc.didSelectRowAt row = some tapped) : tapped.friendIDToSend ∈ vc.friendList := by
  rcases Option.map_eq_some_iff.mp tap with ⟨friend, atRow, rfl⟩
  exact List.mem_of_getElem? atRow

/-- An account opens on the page of another user without a failure. -/
theorem isSome_getUserInfo_of_account (records : s.RecordsComplete) {uid : String}
    (account : uid ∈ s.accounts) {snapshot : Collection}
    (taken : Store.IsSnapshot snapshot (s.db firUsersNode)) :
    (snapshot.lookup uid).isSome ∧
      ((UserVC.viewDidLoad { friendIDFromFriendFeed := uid }).getUserInfo snapshot).isSome := by
  rcases records.users.complete uid account with ⟨user, stored, complete⟩
  have found : snapshot.lookup uid = some user := by
    rw [taken.lookup]
    exact stored
  rcases Option.isSome_iff_exists.mp complete.username with ⟨username, hasName⟩
  rcases complete.friendList with ⟨friends, hasFriends, _⟩
  rcases complete.itemList with ⟨itemIds, hasItems, _⟩
  refine ⟨by simp [found], ?_⟩
  unfold UserVC.getUserInfo
  split_ifs
  · simp [UserVC.viewDidLoad, found, hasName, hasFriends, hasItems]
  · rfl

/-- In every run with sign-ups at once, where Follow is pressed on search pages that have
found their user, friend lists name stored users only. Whatever row of the feed is tapped, the
page of that user finds the record then and in every later state. -/
theorem friendsStored_of_followsAfterLookup {first second : List Event} {middle s : System}
    (toMiddle : Machine.run (stepNow Event.isSignUp) {} first = some middle)
    (reached : Machine.run (stepNow Event.isSignUp) middle second = some s)
    (onUserCopy : Machine.EachStep (stepNow Event.isSignUp) (fun _ => FollowsOnUserCopy) {} first)
    (afterLookup : Machine.EachStep (stepNow Event.isSignUp) (fun _ => FollowsAfterLookup) {} first) :
    FriendsStored middle.db ∧
      ∀ page session vc row tapped, middle.sessions page = some session →
        session.page = .friendFeed vc → vc.didSelectRowAt row = some tapped →
        ∀ snapshot, Store.IsSnapshot snapshot (s.db firUsersNode) →
          (snapshot.lookup tapped.friendIDToSend).isSome ∧
          ((UserVC.viewDidLoad { friendIDFromFriendFeed := tapped.friendIDToSend }).getUserInfo
            snapshot).isSome := by
  have signUpsNow : SignUpsNow Event.isSignUp := fun _ isSignUp => isSignUp
  have friends := friendsAreAccounts_run signUpsNow toMiddle onUserCopy afterLookup
  have records := recordsComplete_run signUpsNow toMiddle
  constructor
  · intro uid list stored friend friend_mem
    rw [Store.mem_keys_iff]
    have account := friends.listed list (.stored uid stored) friend_mem
    rcases records.users.complete friend account with ⟨user, isUser, _⟩
    exact Option.isSome_iff_exists.mpr ⟨user, isUser⟩
  · intro page session vc row tapped isOpen isFeed tap snapshot taken
    have onPage : middle.FriendListAt vc.friendList :=
      .onPage page session isOpen (by rw [isFeed]; rfl)
    have account := friends.listed vc.friendList onPage (tapped_mem tap)
    have grows : middle.accounts ⊆ s.accounts := accounts_subset_runNow reached
    exact isSome_getUserInfo_of_account
      (recordsComplete_run signUpsNow (Machine.run_trans toMiddle reached)) (grows account) taken

def openBob : List Event :=
  twoSignUps ++ [.viewDidLoad 0 0 "ann" (.userCopy "bob@example.com")]

/-- Both callbacks are delivered, `ann` follows `bob` and opens the feed. -/
def followAfterLookup : List Event :=
  openBob ++ [.deliver 0 .getUserInfo annAndBob, .deliver 0 .getCurrentUserInfo annAndBob,
    .press 0 .follow, .viewDidLoad 1 0 "ann" .friendFeed, .deliver 1 .getFriendIDs annAndBob]

/-- `ann` follows before the page has found `bob`. -/
def followBeforeLookup : List Event :=
  openBob ++ [.press 0 .follow, .persist 0]

theorem friendsStored_followAfterLookup :
    let middle := (Machine.run (stepNow Event.isSignUp) {} followAfterLookup).get (by decide)
    let s := (Machine.run (stepNow Event.isSignUp) middle [.persist 0]).get (by decide)
    FriendsStored middle.db ∧
      ∀ page session vc row tapped, middle.sessions page = some session →
        session.page = .friendFeed vc → vc.didSelectRowAt row = some tapped →
        ∀ snapshot, Store.IsSnapshot snapshot (s.db firUsersNode) →
          (snapshot.lookup tapped.friendIDToSend).isSome ∧
          ((UserVC.viewDidLoad { friendIDFromFriendFeed := tapped.friendIDToSend }).getUserInfo
            snapshot).isSome :=
  friendsStored_of_followsAfterLookup (Option.some_get _).symm (Option.some_get _).symm
    (Machine.eachStep_of_forall_mem (by decide)) (Machine.eachStep_of_forall_mem (by decide))

/-- Then the empty string is stored as a friend. -/
theorem not_friendsStored_followBeforeLookup :
    ∃ s, Machine.run (stepNow Event.isSignUp) {} followBeforeLookup = some s ∧
      ¬ FriendsStored s.db := by
  refine ⟨_, (Option.some_get (by decide)).symm, ?_⟩
  intro stored
  exact absurd (stored "ann" [""] (by decide) "" (by decide)) (by decide)

end System

end PriceTracker
