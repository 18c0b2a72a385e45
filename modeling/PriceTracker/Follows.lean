import PriceTracker.Dangling
import PriceTracker.SharedLists

/-!
# When Follow on a search page keeps all friends

A search page writes its copy of the own friend list back with the id it has found. The
id and the copy come from two reads that are delivered independently. With writes at once
a Follow does what it should exactly when both have their values: the id was found and the
copy is the stored list, or the press stores what is stored already.
-/

namespace PriceTracker

/-- The users that a search page shows: the one it has found, and until then those with its
email. -/
def Shows (db : Database) (vc : UserCopyVC) (user : String) : Prop :=
  emailOf db user = some vc.userEmail ∧ (vc.friendID = "" ∨ vc.friendID = user)

/-- An email that `PeopleSearchVC` lists. -/
def EmailListed (db : Database) (email : String) : Prop :=
  ∃ entry ∈ (db firUsersNode).entries, stringAt entry.2 firEmailNode = some email

instance (db : Database) (email : String) : Decidable (EmailListed db email) :=
  inferInstanceAs (Decidable (∃ entry ∈ (db firUsersNode).entries,
    stringAt entry.2 firEmailNode = some email))

theorem emailListed_iff {db : Database} {email : String} :
    EmailListed db email ↔ ∃ user, emailOf db user = some email := by
  constructor
  · rintro ⟨⟨user, record⟩, entry_mem, hasEmail⟩
    have stored : userRecord db user = some record := Store.mem_entries_iff.mp entry_mem
    exact ⟨user, by simpa [emailOf, stored] using hasEmail⟩
  · rintro ⟨user, hasEmail⟩
    rcases Option.bind_eq_some_iff.mp hasEmail with ⟨record, stored, isEmail⟩
    exact ⟨⟨user, record⟩, Store.mem_entries_iff.mpr stored, isEmail⟩

namespace Page

variable {userID : String} {snapshot : Collection} {callback : Callback}

/-- A callback of a search page keeps the email, and the id that it finds has that email. -/
theorem userCopy_callback {vc : UserCopyVC} {next : Page}
    (ran : (Page.userCopy vc).callback userID snapshot callback = some next) :
    ∃ after, next = .userCopy after ∧ after.userEmail = vc.userEmail ∧
      (after.friendID = vc.friendID ∨ (callback.node = firUsersNode ∧
        (snapshot.lookup after.friendID).bind (fun user => stringAt user firEmailNode) =
          some vc.userEmail)) := by
  cases Page.callback_effect ran with
  | @userCopyInfo _ after read =>
      have info := UserCopyVC.infoFrom_getUserInfo read
      refine ⟨after, rfl, info.userEmail, ?_⟩
      rcases info.friendID with same | ⟨user, user_mem, hasEmail⟩
      · exact Or.inl same
      · rw [Store.mem_entries_iff] at user_mem
        exact Or.inr ⟨rfl, by rw [user_mem, Option.bind_some, hasEmail]⟩
  | userCopyFriends own => exact ⟨_, rfl, rfl, Or.inl rfl⟩
  | userCopyItems read => exact ⟨_, rfl, rfl, Or.inl rfl⟩
  | ignored isForeign => exact ⟨vc, rfl, rfl, Or.inl rfl⟩

theorem userCopy_press {vc : UserCopyVC} {button : Button} {next : Page} {writes : List Write}
    (hasButton : (Page.userCopy vc).press userID button = some (next, writes)) :
    ∃ after, next = .userCopy after ∧ after.userEmail = vc.userEmail ∧
      after.friendID = vc.friendID := by
  cases press_effect hasButton <;> exact ⟨_, rfl, rfl, rfl⟩

variable {page next : Page} {button : Button} {writes : List Write}

theorem userRecord_press (hasButton : page.press userID button = some (next, writes))
    (db : Database) {user : String} (different : user ≠ userID) :
    userRecord (Write.applyAll db writes) user = userRecord db user := by
  cases button with
  | save form newItemId =>
      rcases (press_save hasButton).2.2 with ⟨itemAttr, _, rfl⟩
      simp [userRecord_apply, different]
  | follow =>
      rcases (press_follow hasButton).2.2 with ⟨_, _, rfl⟩ | ⟨_, _, rfl⟩
      · simp
      · simp [userRecord_apply, different]

theorem emailOf_press (hasButton : page.press userID button = some (next, writes))
    (db : Database) (user : String) :
    emailOf (Write.applyAll db writes) user = emailOf db user := by
  cases button with
  | save form newItemId =>
      rcases (press_save hasButton).2.2 with ⟨itemAttr, _, rfl⟩
      simp [emailOf_apply]
  | follow =>
      rcases (press_follow hasButton).2.2 with ⟨_, _, rfl⟩ | ⟨_, _, rfl⟩
      · simp
      · simp [emailOf_apply]

end Page

namespace System

variable {uid : String} {start s next : System} {event : Event}

/-- The user records belong to accounts, and so do the pages. -/
structure AccountsKnown (s : System) : Prop where
  isAccount : ∀ user, (userRecord s.db user).isSome → user ∈ s.accounts
  signedIn : ∀ page session, s.sessions page = some session → session.userID ∈ s.accounts
  named : "" ∉ s.accounts

theorem RecordsComplete.accountsKnown (records : s.RecordsComplete) : s.AccountsKnown :=
  ⟨records.users.isAccount, records.signedIn, records.named⟩

theorem accountsKnown_stepNow (idle : s.Idle) (known : s.AccountsKnown)
    (stepped : s.stepNow Event.atOnce event = some next) : next.AccountsKnown := by
  have signedIn : ∀ page session, next.sessions page = some session →
      session.userID ∈ s.accounts := by
    intro page session isOpen
    exact signedIn_of_origin known.signedIn (sessionOrigin_stepNow stepped isOpen)
  rcases stepAtOnce_of_stepNow idle stepped with
    ⟨client, user, newItemId, userName, userEmail, rfl, _, named, _, rfl⟩ |
    ⟨_, _, _, _, _, _, _, rfl⟩ | ⟨_, _, _, _, rfl⟩ | ⟨_, _, _, _, _, _, _, rfl⟩ |
    ⟨page, session, button, after, writes, rfl, isRunning, hasButton, _, rfl⟩ | ⟨_, _, rfl⟩
  · constructor
    · intro other stored
      rw [userRecord_signUpWrites] at stored
      split_ifs at stored with same
      · exact same ▸ List.mem_cons_self
      · exact List.mem_cons_of_mem _ (known.isAccount other stored)
    · intro page session isOpen
      exact List.mem_cons_of_mem _ (signedIn page session isOpen)
    · intro named_mem
      rcases List.mem_cons.mp named_mem with same | old
      · exact named same.symm
      · exact known.named old
  · exact ⟨known.isAccount, signedIn, known.named⟩
  · exact ⟨known.isAccount, signedIn, known.named⟩
  · exact ⟨known.isAccount, signedIn, known.named⟩
  · refine ⟨?_, signedIn, known.named⟩
    intro other stored
    by_cases same : other = session.userID
    · exact same ▸ known.signedIn page session (running_eq_some_iff.mp isRunning).1
    · rw [Page.userRecord_press hasButton _ same] at stored
      exact known.isAccount other stored
  · exact ⟨known.isAccount, signedIn, known.named⟩

theorem accountsKnown_run {events : List Event} (idle : start.Idle) (known : start.AccountsKnown)
    (reached : Machine.run (stepNow Event.atOnce) start events = some s) : s.AccountsKnown := by
  refine Machine.run_induction (motive := fun _ s => s.AccountsKnown) known ?_ reached
  intro events state event next toState holds stepped
  exact accountsKnown_stepNow (idle_run idle toState) holds stepped

theorem emailOf_stepNow (idle : s.Idle) (known : s.AccountsKnown)
    (stepped : s.stepNow Event.atOnce event = some next) {user email : String}
    (hasEmail : emailOf s.db user = some email) : emailOf next.db user = some email := by
  rcases stepAtOnce_of_stepNow idle stepped with
    ⟨client, newUser, newItemId, userName, userEmail, rfl, newAccount, _, _, rfl⟩ |
    ⟨_, _, _, _, _, _, _, rfl⟩ | ⟨_, _, _, _, rfl⟩ | ⟨_, _, _, _, _, _, _, rfl⟩ |
    ⟨page, session, button, after, writes, rfl, isRunning, hasButton, _, rfl⟩ | ⟨_, _, rfl⟩
  · have different : user ≠ newUser := by
      rintro rfl
      rcases Option.bind_eq_some_iff.mp hasEmail with ⟨record, stored, _⟩
      exact newAccount (known.isAccount user (by simp [stored]))
    rw [emailOf, userRecord_signUpWrites, if_neg different]
    exact hasEmail
  · exact hasEmail
  · exact hasEmail
  · exact hasEmail
  · rw [Page.emailOf_press hasButton]
    exact hasEmail
  · exact hasEmail

/-! ## What the search pages of an account hold -/

/-- The account opens search pages with an email that is listed, and presses Follow on search
pages only. -/
def UsesSearchPages (uid : String) (s : System) : Event → Prop
  | .viewDidLoad _ _ userID (.userCopy emailFromPeopleSearch) =>
      userID = uid → EmailListed s.db emailFromPeopleSearch
  | .press page .follow =>
      ∀ session ∈ s.running page, session.userID = uid → session.page.isUserCopy = true
  | _ => True

instance (uid : String) (s : System) : DecidablePred (s.UsesSearchPages uid)
  | .viewDidLoad _ _ userID (.userCopy emailFromPeopleSearch) =>
      inferInstanceAs (Decidable (userID = uid → EmailListed s.db emailFromPeopleSearch))
  | .press page .follow => inferInstanceAs (Decidable (∀ session ∈ s.running page,
      session.userID = uid → session.page.isUserCopy = true))
  | .viewDidLoad _ _ _ .addEntry | .viewDidLoad _ _ _ (.user _) | .viewDidLoad _ _ _ .friendFeed
  | .viewDidLoad _ _ _ .profile | .viewDidLoad _ _ _ .peopleSearch | .press _ (.save _ _)
  | .signUp _ _ _ _ _ | .viewWillAppear _ | .deliver _ _ _ | .persist _ | .stop _ => .isTrue trivial

/-- The page is about a stored user, and an id that it has found is one with its email. -/
def ShowsUser (db : Database) (vc : UserCopyVC) : Prop :=
  (∃ user, emailOf db user = some vc.userEmail) ∧
    (vc.friendID ≠ "" → emailOf db vc.friendID = some vc.userEmail)

/-- All search pages of the account show users. -/
def PagesShowUsers (uid : String) (s : System) : Prop :=
  ∀ page session vc, s.sessions page = some session → session.userID = uid →
    session.page = .userCopy vc → ShowsUser s.db vc

theorem ShowsUser.of_eq {db later : Database} {vc after : UserCopyVC}
    (kept : ∀ user email, emailOf db user = some email → emailOf later user = some email)
    (sameEmail : after.userEmail = vc.userEmail) (sameID : after.friendID = vc.friendID)
    (shows : ShowsUser db vc) : ShowsUser later after := by
  rcases shows with ⟨⟨user, hasEmail⟩, found⟩
  constructor
  · exact ⟨user, by rw [sameEmail]; exact kept user _ hasEmail⟩
  · intro isFound
    rw [sameEmail]
    rw [sameID] at isFound ⊢
    exact kept _ _ (found isFound)

theorem pagesShowUsers_stepNow (idle : s.Idle) (known : s.AccountsKnown)
    (shows : PagesShowUsers uid s) (search : UsesSearchPages uid s event)
    (stepped : s.stepNow Event.atOnce event = some next) : PagesShowUsers uid next := by
  have kept : ∀ user email, emailOf s.db user = some email → emailOf next.db user = some email :=
    fun _ _ => emailOf_stepNow idle known stepped
  intro page session vc isOpen ofAccount isSearch
  rcases sessionOrigin_stepNow stepped isOpen with
    ⟨before, wasOpen, sameUser, _, samePage, _⟩ | ⟨client, userID, screen, rfl, _, rfl⟩ |
    ⟨before, callback, snapshot, _, isRunning, taken, sameUser, _, ran⟩ |
    ⟨before, button, writes, _, isRunning, sameUser, _, hasButton⟩
  · have wasShown := shows page before vc wasOpen (sameUser ▸ ofAccount) (samePage ▸ isSearch)
    exact wasShown.of_eq kept rfl rfl
  · cases screen with
    | userCopy emailFromPeopleSearch =>
        have isOpened : vc = UserCopyVC.viewDidLoad { emailFromPeopleSearch } := by
          simpa [Screen.viewDidLoad] using isSearch.symm
        subst isOpened
        rcases emailListed_iff.mp (search ofAccount) with ⟨user, hasEmail⟩
        exact ⟨⟨user, kept user _ hasEmail⟩, fun isFound => absurd rfl isFound⟩
    | _ => simp [Screen.viewDidLoad] at isSearch
  · -- a callback keeps the email of the page, and finds an id with that email
    have wasOpen := (running_eq_some_iff.mp isRunning).1
    have wasSearch : before.page.isUserCopy = true := by
      rw [← Page.isUserCopy_callback ran, isSearch]
      rfl
    rcases Page.exists_userCopy wasSearch with ⟨earlier, wasPage⟩
    have wasShown := shows page before earlier wasOpen (sameUser ▸ ofAccount) wasPage
    rw [wasPage] at ran
    rcases Page.userCopy_callback ran with ⟨after, isAfter, sameEmail, found⟩
    rw [isSearch, Page.userCopy.injEq] at isAfter
    subst isAfter
    rcases found with sameID | ⟨isUsers, hasEmail⟩
    · exact wasShown.of_eq kept sameEmail sameID
    · rw [taken.lookup, isUsers] at hasEmail
      have isEmail : emailOf next.db vc.friendID = some vc.userEmail := by
        rw [sameEmail]
        exact kept _ _ hasEmail
      exact ⟨⟨_, isEmail⟩, fun _ => isEmail⟩
  · have wasOpen := (running_eq_some_iff.mp isRunning).1
    have wasSearch : before.page.isUserCopy = true := by
      rw [← Page.isUserCopy_press hasButton, isSearch]
      rfl
    rcases Page.exists_userCopy wasSearch with ⟨earlier, wasPage⟩
    have wasShown := shows page before earlier wasOpen (sameUser ▸ ofAccount) wasPage
    rw [wasPage] at hasButton
    rcases Page.userCopy_press hasButton with ⟨after, isAfter, sameEmail, sameID⟩
    rw [isSearch, Page.userCopy.injEq] at isAfter
    subst isAfter
    exact wasShown.of_eq kept sameEmail sameID

theorem pagesShowUsers_run (ready : AccountReady uid start) (known : start.AccountsKnown)
    {events : List Event} (reached : Machine.run (stepNow Event.atOnce) start events = some s)
    (search : Machine.EachStep (stepNow Event.atOnce) (fun _ => UsesSearchPages uid) start events) :
    PagesShowUsers uid s := by
  have initial : PagesShowUsers uid start :=
    fun page session vc isOpen ofAccount _ => absurd ofAccount (ready.closed page session isOpen)
  refine Machine.invariant_of_eachStep (fun _ => PagesShowUsers uid) initial ?_ reached search
  intro events state event next toState shows search stepped
  exact pagesShowUsers_stepNow (idle_run ready.idle toState)
    (accountsKnown_run ready.idle known toState) shows search stepped

theorem ShowsUser.exists_shown {db : Database} {vc : UserCopyVC} (shows : ShowsUser db vc) :
    ∃ user, Shows db vc user := by
  by_cases isFound : vc.friendID = ""
  · rcases shows.1 with ⟨user, hasEmail⟩
    exact ⟨user, hasEmail, Or.inl isFound⟩
  · exact ⟨vc.friendID, shows.2 isFound, Or.inr rfl⟩

/-! ## Follow -/

/-- A Follow of the account changes the stored friend list as it should for each user that the
page shows: the list stays as it is when it has the id, and else gets it at its end. -/
def FollowAdds (uid : String) (s : System) : Event → Prop
  | .press page .follow =>
      ∀ session vc, s.running page = some session → session.userID = uid →
        session.page = .userCopy vc → ∀ friends, friendListOf s.db uid = some friends →
          ∀ user, Shows s.db vc user →
            ∀ next, s.stepNow Event.atOnce (.press page .follow) = some next →
              friendListOf next.db uid =
                some (if user ∈ friends then friends else friends ++ [user])
  | _ => True

/-- The page has found its user and its copy is the stored list, or the list has the shown
user and a press stores nothing new: the copy has the id too, or the id is all that it
lacks. -/
def ReadyToFollow (db : Database) (vc : UserCopyVC) (friends : List String) : Prop :=
  (vc.friendID ≠ "" ∧ vc.myFriendList = friends) ∨
    ((∀ user, Shows db vc user → user ∈ friends) ∧
      (vc.friendID ∈ vc.myFriendList ∨ vc.myFriendList ++ [vc.friendID] = friends))

/-- A Follow of the account is pressed on a page that is ready. -/
def FollowServed (uid : String) (s : System) : Event → Prop
  | .press page .follow =>
      ∀ session vc, s.running page = some session → session.userID = uid →
        session.page = .userCopy vc → ∀ friends, friendListOf s.db uid = some friends →
          ReadyToFollow s.db vc friends
  | _ => True

/-- A Follow of the account is pressed on a page that has found its user and is in sync with the
stored friend list. -/
def FollowInSync (uid : String) (history : List (System × Event)) (s : System) : Event → Prop
  | .press page .follow =>
      ∀ session, s.running page = some session → session.userID = uid →
        session.page.followed ≠ "" ∧ CachedList.InSync page (friendView.actions uid history)
  | _ => True

instance (uid : String) (history : List (System × Event)) (s : System) :
    DecidablePred (FollowInSync uid history s)
  | .press page .follow => inferInstanceAs (Decidable (∀ session ∈ s.running page,
      session.userID = uid →
        session.page.followed ≠ "" ∧ CachedList.InSync page (friendView.actions uid history)))
  | .press _ (.save _ _) | .signUp _ _ _ _ _ | .viewDidLoad _ _ _ _ | .viewWillAppear _
  | .deliver _ _ _ | .persist _ | .stop _ => .isTrue trivial

/-- In a run no friend of the account is lost. -/
structure NoFriendLost (uid : String) (start : System) (events : List Event) : Prop where
  adds : Machine.EachStep (stepNow Event.atOnce) (fun _ => FollowAdds uid) start events
  stays : ∀ before after earlier later, events = before ++ after →
    Machine.run (stepNow Event.atOnce) start before = some earlier →
    Machine.run (stepNow Event.atOnce) earlier after = some later →
    ∀ friends, friendListOf earlier.db uid = some friends →
      ∃ laterFriends, friendListOf later.db uid = some laterFriends ∧ friends ⊆ laterFriends

theorem friendListOf_follow {page : Nat} {session : Session} {vc : UserCopyVC}
    (idle : s.Idle) (isRunning : s.running page = some session) (isSearch : session.page = .userCopy vc)
    {friends : List String} (stored : friendListOf s.db session.userID = some friends)
    (stepped : s.stepNow Event.atOnce (.press page .follow) = some next) :
    friendListOf next.db session.userID = some
      (if vc.friendID ∈ vc.myFriendList then friends else vc.myFriendList ++ [vc.friendID]) := by
  rcases stepNow_press idle stepped with ⟨other, after, writes, alsoRunning, hasButton, _, rfl⟩
  rw [isRunning, Option.some.injEq] at alsoRunning
  subst alsoRunning
  rw [friendListOf_press hasButton, if_pos rfl, isSearch, stored]
  simp only [Page.friendListChange, Page.myFriendList]
  split_ifs <;> rfl

/-- What a Follow stores is right for every shown user exactly when the page is ready. -/
theorem follow_iff_readyToFollow {db : Database} {vc : UserCopyVC} {friends : List String}
    (shows : ShowsUser db vc) (named : emailOf db "" = none) :
    (∀ user, Shows db vc user →
      (if vc.friendID ∈ vc.myFriendList then friends else vc.myFriendList ++ [vc.friendID]) =
        if user ∈ friends then friends else friends ++ [user]) ↔ ReadyToFollow db vc friends := by
  have exists_shown := shows.exists_shown
  by_cases listed : vc.friendID ∈ vc.myFriendList
  · simp only [if_pos listed]
    constructor
    · intro adds
      refine Or.inr ⟨?_, Or.inl listed⟩
      intro user shown
      by_contra unlisted
      have same := adds user shown
      rw [if_neg unlisted] at same
      simp at same
    · rintro (⟨isFound, upToDate⟩ | ⟨stored, _⟩) user shown
      · have isUser : vc.friendID = user := shown.2.resolve_left isFound
        rw [if_pos]
        rw [← isUser, ← upToDate]
        exact listed
      · rw [if_pos (stored user shown)]
  · simp only [if_neg listed]
    constructor
    · intro adds
      rcases exists_shown with ⟨first, shown⟩
      have same := adds first shown
      split_ifs at same with isStored
      · -- the press stores what is stored, so this is right for listed users only
        refine Or.inr ⟨?_, Or.inr same⟩
        intro user shown
        by_contra unlisted
        have longer := adds user shown
        rw [if_neg unlisted, same] at longer
        simp at longer
      · have parts := List.append_inj' same rfl
        have isUser : vc.friendID = first := by simpa using parts.2
        refine Or.inl ⟨?_, parts.1⟩
        intro notFound
        rw [← isUser, notFound] at shown
        exact absurd (shown.1.symm.trans named) (by simp)
    · rintro (⟨isFound, upToDate⟩ | ⟨stored, isListed | same⟩) user shown
      · have isUser : vc.friendID = user := shown.2.resolve_left isFound
        rw [if_neg, upToDate, isUser]
        rw [← isUser, ← upToDate]
        exact listed
      · exact absurd isListed listed
      · rw [if_pos (stored user shown), same]

theorem AccountsKnown.emailOf_empty (known : s.AccountsKnown) : emailOf s.db "" = none := by
  cases stored : userRecord s.db "" with
  | none => simp [emailOf, stored]
  | some record => exact absurd (known.isAccount "" (by simp [stored])) known.named

theorem followAdds_iff_followServed (idle : s.Idle) (known : s.AccountsKnown)
    (shows : PagesShowUsers uid s) (stepped : s.stepNow Event.atOnce event = some next) :
    FollowAdds uid s event ↔ FollowServed uid s event := by
  cases event with
  | press page button =>
      cases button with
      | save form newItemId => exact Iff.rfl
      | follow =>
          constructor
          · rintro adds session vc isRunning rfl isSearch friends stored
            have isShown := shows page session vc (running_eq_some_iff.mp isRunning).1 rfl isSearch
            rw [← follow_iff_readyToFollow isShown known.emailOf_empty]
            intro user shown
            have added := adds session vc isRunning rfl isSearch friends stored user shown next stepped
            rw [friendListOf_follow idle isRunning isSearch stored stepped, Option.some.injEq] at added
            exact added
          · rintro served session vc isRunning rfl isSearch friends stored user shown following taken
            have isShown := shows page session vc (running_eq_some_iff.mp isRunning).1 rfl isSearch
            have isReady := served session vc isRunning rfl isSearch friends stored
            rw [friendListOf_follow idle isRunning isSearch stored taken,
              (follow_iff_readyToFollow isShown known.emailOf_empty).mpr isReady user shown]
  | _ => exact Iff.rfl

theorem isSome_friendListOf_run (ready : AccountReady uid start) {events : List Event}
    (reached : Machine.run (stepNow Event.atOnce) start events = some s) :
    (friendListOf s.db uid).isSome :=
  friendView.isSome_stored_run ready.idle ready.isSome_friendListOf reached

theorem grows_of_followAdds (idle : s.Idle) (account : uid ∈ s.accounts)
    (isStored : (friendListOf s.db uid).isSome) (shows : PagesShowUsers uid s)
    (search : UsesSearchPages uid s event) (adds : FollowAdds uid s event)
    (stepped : s.stepNow Event.atOnce event = some next) : friendView.Grows uid s next := by
  apply ListView.grows_of_change idle account isStored stepped
  rintro page session button change rfl isRunning sameUser changes friends stored
  cases button with
  | save form newItemId =>
      cases kind : session.page <;> simp [kind, friendView, Page.friendListChange] at changes
  | follow =>
      rcases Page.exists_userCopy (search session isRunning sameUser) with ⟨vc, isSearch⟩
      have isShown := shows page session vc (running_eq_some_iff.mp isRunning).1 sameUser isSearch
      rcases isShown.exists_shown with ⟨user, shown⟩
      refine ⟨_, adds session vc isRunning sameUser isSearch friends stored user shown next stepped, ?_⟩
      split_ifs
      · exact List.Subset.refl _
      · exact List.subset_append_left _ _

/-- A page that has found its user and is in sync with the friend list is ready. -/
theorem followServed_of_followInSync (ready : AccountReady uid start) {events : List Event}
    (reached : Machine.run (stepNow Event.atOnce) start events = some s)
    (inSync : FollowInSync uid (Machine.trace (stepNow Event.atOnce) start events) s event) :
    FollowServed uid s event := by
  cases event with
  | press page button =>
      cases button with
      | save form newItemId => trivial
      | follow =>
          intro session vc isRunning sameUser isSearch friends stored
          rcases inSync session isRunning sameUser with ⟨isFound, synced⟩
          have isCopy : friendListOf s.db uid = some session.page.myFriendList :=
            ListView.stored_eq_copy_of_inSync ready.idle
              (fun _ _ toState => ListView.served_of_isSome (isSome_friendListOf_run ready toState))
              reached (running_eq_some_iff.mp isRunning).1 sameUser synced
          rw [stored, isSearch, Option.some.injEq] at isCopy
          rw [isSearch] at isFound
          exact Or.inl ⟨isFound, isCopy.symm⟩
  | _ => trivial

/-- With writes at once every Follow of an account with a complete record adds the shown user,
and no friend is lost, exactly when each Follow is pressed on a page that is ready. It is when each
Follow is pressed on a page that has found its user and has read or written the list with no other
page of the account writing it since. -/
theorem noFriendLost_iff_followServed (ready : AccountReady uid start) (known : start.AccountsKnown)
    {events : List Event} (reached : Machine.run (stepNow Event.atOnce) start events = some s)
    (search : Machine.EachStep (stepNow Event.atOnce) (fun _ => UsesSearchPages uid) start events) :
    (NoFriendLost uid start events ↔
      Machine.EachStep (stepNow Event.atOnce) (fun _ => FollowServed uid) start events) ∧
    (Machine.EachStep (stepNow Event.atOnce) (FollowInSync uid) start events →
      NoFriendLost uid start events) := by
  have shown : ∀ before after middle, events = before ++ after →
      Machine.run (stepNow Event.atOnce) start before = some middle → PagesShowUsers uid middle := by
    rintro before after middle rfl toMiddle
    exact pagesShowUsers_run ready known toMiddle (search.before toMiddle)
  have exact : Machine.EachStep (stepNow Event.atOnce) (fun _ => FollowAdds uid) start events ↔
      Machine.EachStep (stepNow Event.atOnce) (fun _ => FollowServed uid) start events := by
    apply Machine.eachStep_congr reached
    intro before event after middle next split toMiddle stepped
    exact followAdds_iff_followServed (idle_run ready.idle toMiddle)
      (accountsKnown_run ready.idle known toMiddle) (shown before _ middle split toMiddle) stepped
  have kept : Machine.EachStep (stepNow Event.atOnce) (fun _ => FollowServed uid) start events →
      NoFriendLost uid start events := by
    intro served
    have adds := exact.mpr served
    refine ⟨adds, ?_⟩
    rintro before after earlier later rfl toEarlier toLater
    refine Machine.relation_run (friendView.Grows uid) ListView.Grows.refl ListView.Grows.trans
      toEarlier toLater ?_
    intro before event after middle next split toMiddle stepped
    have shows := shown before _ middle split toMiddle
    rw [split] at adds search
    exact grows_of_followAdds (idle_run ready.idle toMiddle)
      (accounts_subset_runNow toMiddle ready.account) (isSome_friendListOf_run ready toMiddle) shows
      (search.of_split toMiddle) (adds.of_split toMiddle) stepped
  refine ⟨⟨fun noneLost => exact.mp noneLost.adds, kept⟩, ?_⟩
  intro inSync
  apply kept
  intro history middle event future split
  rcases Machine.exists_of_mem_trace reached split with
    ⟨before, after, next, rfl, toMiddle, rfl, stepped, _⟩
  exact followServed_of_followInSync ready toMiddle (inSync _ middle event future split)

theorem accountsKnown_annAndBobSignedUp : annAndBobSignedUp.AccountsKnown := by
  have reached : Machine.run (stepNow Event.atOnce) {} twoSignUps = some annAndBobSignedUp :=
    (Machine.run_concat run_annSignedUp _).trans (Option.some_get _).symm
  exact (recordsComplete_atOnce reached).accountsKnown

/-- `bob` follows `ann` on one page. Another page of his reads the list afterwards, and Follow is
pressed on both pages again. -/
def followsOnTwoPages : List Event :=
  let before : List Event :=
    [.viewDidLoad 0 0 "bob" (.userCopy "ann@example.com"),
      .viewDidLoad 1 1 "bob" (.userCopy "ann@example.com"),
      .deliver 0 .getUserInfo annAndBob, .deliver 0 .getCurrentUserInfo annAndBob,
      .deliver 1 .getUserInfo annAndBob, .press 0 .follow]
  let db := ((Machine.run (stepNow Event.atOnce) annAndBobSignedUp before).get (by decide)).db
  before ++ [.deliver 1 .getCurrentUserInfo (db firUsersNode), .press 1 .follow, .press 0 .follow]

theorem noFriendLost_followsOnTwoPages :
    NoFriendLost "bob" annAndBobSignedUp followsOnTwoPages :=
  (noFriendLost_iff_followServed (s := (Machine.run (stepNow Event.atOnce) annAndBobSignedUp
    followsOnTwoPages).get (by decide)) accountReady_annAndBobSignedUp
    accountsKnown_annAndBobSignedUp (Option.some_get _).symm
    (Machine.eachStep_of_forall_mem (by decide))).2 (Machine.eachStep_of_forall_lt (by decide))

/-- `bob` follows before the page has received its reads. -/
def followAtOnce : List Event :=
  [.viewDidLoad 0 0 "bob" (.userCopy "ann@example.com"), .press 0 .follow]

/-- Then his friend list holds the empty string only. -/
theorem not_noFriendLost_followAtOnce :
    AccountReady "bob" annAndBobSignedUp ∧ annAndBobSignedUp.AccountsKnown ∧
      Machine.EachStep (stepNow Event.atOnce) (fun _ => UsesSearchPages "bob") annAndBobSignedUp
        followAtOnce ∧
      ∃ s, Machine.run (stepNow Event.atOnce) annAndBobSignedUp followAtOnce = some s ∧
        ¬ NoFriendLost "bob" annAndBobSignedUp followAtOnce := by
  refine ⟨accountReady_annAndBobSignedUp, accountsKnown_annAndBobSignedUp,
    Machine.eachStep_of_forall_mem (by decide), _, (Option.some_get (by decide)).symm, ?_⟩
  intro kept
  rcases kept.stays [] followAtOnce annAndBobSignedUp
    ((Machine.run (stepNow Event.atOnce) annAndBobSignedUp followAtOnce).get (by decide)) rfl rfl
    (Option.some_get _).symm ["bob"] (by decide) with ⟨laterFriends, stored, grows⟩
  have overwritten : friendListOf ((Machine.run (stepNow Event.atOnce) annAndBobSignedUp
      followAtOnce).get (by decide)).db "bob" = some [""] := by
    decide
  rw [overwritten, Option.some.injEq] at stored
  subst stored
  exact absurd (grows List.mem_cons_self) (by decide)

end System

end PriceTracker
