import PriceTracker.Uniqueness

/-!
# Complete records

When the four writes of every sign-up take effect at once, each account always has a
complete user record: Save and Follow only replace one list of a complete record by a
list that is not empty. Every result about readers that rely on complete records starts
from here.
-/

namespace PriceTracker

/-- The writes that Save and Follow issue: they replace a list of an account. -/
def Write.Amends (accounts : List String) : Write → Prop
  | .setItem _ _ => True
  | .updateFriendList uid list | .updateItemList uid list => uid ∈ accounts ∧ list ≠ []
  | .setUser _ _ | .setFriendList _ _ | .setItemList _ _ => False

theorem Write.Amends.mono {accounts larger : List String} (grows : accounts ⊆ larger) {write : Write}
    (amends : write.Amends accounts) : write.Amends larger := by
  cases write with
  | setItem newItemId itemAttr => trivial
  | updateFriendList uid list => exact ⟨grows amends.1, amends.2⟩
  | updateItemList uid list => exact ⟨grows amends.1, amends.2⟩
  | setUser uid newUserData => exact amends
  | setFriendList uid list => exact amends
  | setItemList uid list => exact amends

/-- The user records are those of the accounts, and all of them are complete. -/
structure UsersComplete (accounts : List String) (db : Database) : Prop where
  complete : ∀ uid ∈ accounts, ∃ user, userRecord db uid = some user ∧ CompleteUser user
  isAccount : ∀ uid, (userRecord db uid).isSome → uid ∈ accounts

theorem CompleteUser.insert_friendList {user : Record} (complete : CompleteUser user)
    {list : List String} (nonempty : list ≠ []) :
    CompleteUser (user.insert firFriendListNode (.strings list)) := by
  constructor
  · simpa [stringAt_insert, firUsernameNode, firFriendListNode] using complete.username
  · simpa [stringAt_insert, firEmailNode, firFriendListNode] using complete.email
  · exact ⟨list, by simp [stringsAt_insert, Value.asStrings], nonempty⟩
  · simpa [stringsAt_insert, firItemListNode, firFriendListNode] using complete.itemList

theorem CompleteUser.insert_itemList {user : Record} (complete : CompleteUser user)
    {list : List String} (nonempty : list ≠ []) :
    CompleteUser (user.insert firItemListNode (.strings list)) := by
  constructor
  · simpa [stringAt_insert, firUsernameNode, firItemListNode] using complete.username
  · simpa [stringAt_insert, firEmailNode, firItemListNode] using complete.email
  · simpa [stringsAt_insert, firItemListNode, firFriendListNode] using complete.friendList
  · exact ⟨list, by simp [stringsAt_insert, Value.asStrings], nonempty⟩

theorem UsersComplete.of_changed {accounts : List String} {db next : Database} {owner : String}
    (users : UsersComplete accounts db) (account : owner ∈ accounts)
    (changed : ∃ user, userRecord next owner = some user ∧ CompleteUser user)
    (others : ∀ uid, uid ≠ owner → userRecord next uid = userRecord db uid) :
    UsersComplete accounts next := by
  constructor
  · intro uid uid_mem
    by_cases same : uid = owner
    · rw [same]
      exact changed
    · rw [others uid same]
      exact users.complete uid uid_mem
  · intro uid stored
    by_cases same : uid = owner
    · rw [same]
      exact account
    · rw [others uid same] at stored
      exact users.isAccount uid stored

theorem UsersComplete.apply {accounts : List String} {db : Database} {write : Write}
    (users : UsersComplete accounts db) (amends : write.Amends accounts) :
    UsersComplete accounts (write.apply db) := by
  cases write with
  | setItem newItemId itemAttr =>
      constructor
      · intro uid uid_mem
        rw [userRecord_apply]
        exact users.complete uid uid_mem
      · intro uid stored
        rw [userRecord_apply] at stored
        exact users.isAccount uid stored
  | updateFriendList owner list =>
      rcases amends with ⟨account, nonempty⟩
      rcases users.complete owner account with ⟨user, stored, complete⟩
      refine users.of_changed account ⟨_, ?_, complete.insert_friendList nonempty⟩ ?_
      · simp [userRecord_apply, stored]
      · intro uid different
        simp [userRecord_apply, different]
  | updateItemList owner list =>
      rcases amends with ⟨account, nonempty⟩
      rcases users.complete owner account with ⟨user, stored, complete⟩
      refine users.of_changed account ⟨_, ?_, complete.insert_itemList nonempty⟩ ?_
      · simp [userRecord_apply, stored]
      · intro uid different
        simp [userRecord_apply, different]
  | setUser uid newUserData => exact absurd amends id
  | setFriendList uid list => exact absurd amends id
  | setItemList uid list => exact absurd amends id

theorem UsersComplete.applyAll {accounts : List String} {db : Database} {writes : List Write}
    (users : UsersComplete accounts db) (amends : ∀ write ∈ writes, write.Amends accounts) :
    UsersComplete accounts (Write.applyAll db writes) := by
  induction writes generalizing db with
  | nil => exact users
  | cons write writes ih =>
      rw [List.forall_mem_cons] at amends
      rw [applyAll_cons]
      exact ih (users.apply amends.1) amends.2

/-- Every user record is complete. -/
def AllComplete (db : Database) : Prop :=
  ∀ uid user, userRecord db uid = some user → CompleteUser user

theorem UsersComplete.allComplete {accounts : List String} {db : Database}
    (users : UsersComplete accounts db) : AllComplete db := by
  intro uid user stored
  rcases users.complete uid (users.isAccount uid (by simp [stored])) with ⟨other, isUser, complete⟩
  rw [stored, Option.some.injEq] at isUser
  exact isUser ▸ complete

theorem CompleteUser.hasUserInfo {user : Record} (complete : CompleteUser user) :
    HasUserInfo user := by
  rcases complete.friendList with ⟨friends, hasFriends, _⟩
  rcases complete.itemList with ⟨itemIds, hasItems, _⟩
  exact ⟨complete.username, by simp [hasFriends], by simp [hasItems]⟩

/-- On complete records a search page finds all it needs of every user. -/
theorem AllComplete.isSome_getUserInfo {db : Database} (complete : AllComplete db)
    (vc : UserCopyVC) {snapshot : Collection}
    (taken : Store.IsSnapshot snapshot (db firUsersNode)) : (vc.getUserInfo snapshot).isSome := by
  rw [UserCopyVC.isSome_getUserInfo_iff]
  rintro ⟨uid, user⟩ entry_mem
  have stored : userRecord db uid = some user := by
    rw [userRecord, ← taken.lookup]
    exact Store.mem_entries_iff.mp entry_mem
  rcases Option.isSome_iff_exists.mp (complete uid user stored).email with ⟨email, hasEmail⟩
  have hasInfo := (complete uid user stored).hasUserInfo
  exact ⟨email, hasEmail, fun _ => ⟨hasInfo.username, hasInfo.friendList, hasInfo.itemList⟩⟩

def newUser (newItemId userName userEmail uid : String) : Record :=
  ((dictionary [(firUsernameNode, userName), (firEmailNode, userEmail)]).insert
    firFriendListNode (.strings [uid])).insert firItemListNode (.strings [newItemId])

theorem completeUser_newUser (newItemId userName userEmail uid : String) :
    CompleteUser (newUser newItemId userName userEmail uid) := by
  constructor <;>
    simp [newUser, stringAt_insert, stringsAt_insert, stringAt_dictionary, List.lookup_cons,
      Value.asStrings, firUsernameNode, firEmailNode, firFriendListNode, firItemListNode]

theorem userRecord_signUpWrites (db : Database) (uid newItemId userName userEmail user : String) :
    userRecord (Write.applyAll db (signUpWrites uid newItemId userName userEmail)) user =
      if user = uid then some (newUser newItemId userName userEmail uid)
      else userRecord db user := by
  by_cases same : user = uid
  · subst same
    simp [signUpWrites, userRecord_apply, newUser]
  · simp [signUpWrites, userRecord_apply, same]

theorem UsersComplete.signUp {accounts : List String} {db : Database}
    (users : UsersComplete accounts db) (uid newItemId userName userEmail : String) :
    UsersComplete (uid :: accounts)
      (Write.applyAll db (signUpWrites uid newItemId userName userEmail)) := by
  constructor
  · intro user user_mem
    rw [userRecord_signUpWrites]
    split_ifs with same
    · exact ⟨_, rfl, completeUser_newUser newItemId userName userEmail uid⟩
    · rw [List.mem_cons] at user_mem
      exact users.complete user (user_mem.resolve_left same)
  · intro user stored
    rw [userRecord_signUpWrites] at stored
    split_ifs at stored with same
    · simp [same]
    · exact List.mem_cons_of_mem _ (users.isAccount user stored)

namespace System

variable {s next : System} {event : Event}

/-- The state of a system whose sign-ups take effect at once. -/
structure RecordsComplete (s : System) : Prop where
  users : UsersComplete s.accounts s.db
  amends : ∀ client, ∀ write ∈ s.queue client, write.Amends s.accounts
  signedIn : ∀ page session, s.sessions page = some session → session.userID ∈ s.accounts
  named : "" ∉ s.accounts

theorem recordsComplete_initial : ({} : System).RecordsComplete := by
  constructor
  · constructor <;> simp [userRecord]
  · simp
  · simp
  · simp

/-- A session stays signed in, and a new one is signed in as an account. -/
theorem signedIn_of_origin
    (signedIn : ∀ page session, s.sessions page = some session → session.userID ∈ s.accounts)
    {page : Nat} {session : Session} (origin : SessionOrigin s event page session) :
    session.userID ∈ s.accounts := by
  rcases origin.signedIn with ⟨before, wasOpen, sameUser, _⟩ | ⟨_, _, account⟩
  · rw [sameUser]
    exact signedIn page before wasOpen
  · exact account

theorem amends_issued (records : s.RecordsComplete) {page : Nat} {button : Button} {client : Nat}
    {writes : List Write} (issues : s.Issues (.press page button) client writes) :
    ∀ write ∈ writes, write.Amends s.accounts := by
  rcases issues with _ | @⟨_, session, _, after, writes, isRunning, hasButton⟩
  have account := records.signedIn page session (running_eq_some_iff.mp isRunning).1
  cases button with
  | save form newItemId =>
      rcases (Page.press_save hasButton).2.2 with ⟨itemAttr, _, rfl⟩
      simp [Write.Amends, account]
  | follow =>
      rcases (Page.press_follow hasButton).2.2 with ⟨_, _, rfl⟩ | ⟨_, _, rfl⟩
      · simp
      · simp [Write.Amends, account]

theorem recordsComplete_step (records : s.RecordsComplete) (stepped : s.step event = some next)
    (notSignUp : event.isSignUp = false) : next.RecordsComplete := by
  have sameAccounts : next.accounts = s.accounts := accounts_step stepped notSignUp
  constructor
  · rw [sameAccounts]
    rcases db_step stepped with same | ⟨client, write, rest, _, queued, applied⟩
    · rw [same]
      exact records.users
    · rw [applied]
      exact records.users.apply (records.amends client write (by simp [queued]))
  · intro client write waiting
    rw [sameAccounts]
    rcases issues_of_mem_queue stepped waiting with old | ⟨writes, issues, issued⟩
    · exact records.amends client write old
    · cases event with
      | signUp client uid newItemId userName userEmail => simp [Event.isSignUp] at notSignUp
      | press page button => exact amends_issued records issues write issued
      | _ => cases issues
  · intro page session isOpen
    rw [sameAccounts]
    exact signedIn_of_origin records.signedIn (sessionOrigin_step stepped isOpen)
  · rw [sameAccounts]
    exact records.named

theorem recordsComplete_signUp (records : s.RecordsComplete) {client : Nat}
    {uid newItemId userName userEmail : String}
    (stepped : s.step (.signUp client uid newItemId userName userEmail) = some next) :
    (next.settle client).RecordsComplete := by
  rcases step_signUp stepped with ⟨_, named, _, rfl⟩
  have grows : s.accounts ⊆ uid :: s.accounts := List.subset_cons_self _ _
  constructor
  · have users := (records.users.applyAll (records.amends client)).signUp uid newItemId userName
      userEmail
    rw [← applyAll_append] at users
    simpa [settle, issue] using users
  · intro other write waiting
    rw [queue_settle, queue_issue] at waiting
    split_ifs at waiting
    · simp at waiting
    · exact (records.amends other write waiting).mono grows
  · intro page session isOpen
    exact grows (records.signedIn page session isOpen)
  · intro named_mem
    rcases List.mem_cons.mp named_mem with same | old
    · exact named same.symm
    · exact records.named old

/-- The events whose writes take effect at once include all sign-ups. -/
def SignUpsNow (now : Event → Bool) : Prop :=
  ∀ event : Event, event.isSignUp = true → now event = true

theorem recordsComplete_stepNow {now : Event → Bool} (signUpsNow : SignUpsNow now)
    (records : s.RecordsComplete) (stepped : s.stepNow now event = some next) :
    next.RecordsComplete := by
  cases isSignUp : event.isSignUp with
  | true =>
      rw [stepNow_of_now (signUpsNow event isSignUp)] at stepped
      rcases Option.map_eq_some_iff.mp stepped with ⟨after, taken, rfl⟩
      cases event with
      | signUp client uid newItemId userName userEmail => exact recordsComplete_signUp records taken
      | _ => simp [Event.isSignUp] at isSignUp
  | false =>
      refine invariant_stepNow (motive := RecordsComplete) ?_ ?_ stepped
      · intro state client persisted holds taken
        exact recordsComplete_step holds taken rfl
      · intro after taken
        exact recordsComplete_step records taken isSignUp

theorem recordsComplete_run {now : Event → Bool} (signUpsNow : SignUpsNow now)
    {events : List Event} (reached : Machine.run (stepNow now) {} events = some s) :
    s.RecordsComplete :=
  Machine.invariant_run (fun _ _ _ => recordsComplete_stepNow signUpsNow) recordsComplete_initial
    reached

theorem queuesWellFormed_runNow {now : Event → Bool} {events : List Event}
    (reached : Machine.run (stepNow now) {} events = some s) : s.QueuesWellFormed := by
  rcases exists_run_of_run_stepNow reached with ⟨fine, toState⟩
  exact queuesWellFormed_run toState

theorem accounts_subset_runNow {now : Event → Bool} {events : List Event} {start : System}
    (reached : Machine.run (stepNow now) start events = some s) : start.accounts ⊆ s.accounts := by
  rcases exists_run_of_run_stepNow reached with ⟨fine, toState⟩
  refine Machine.run_induction (motive := fun _ s => start.accounts ⊆ s.accounts)
    (List.Subset.refl _) ?_ toState
  intro events state event next _ grows stepped
  exact List.Subset.trans grows (accounts_subset_step stepped)

def twoSignUps : List Event :=
  [.signUp 0 "ann" "shoes1" "Ann" "ann@example.com", .signUp 1 "bob" "shoes2" "Bob" "bob@example.com"]

def twoSignedUp : System :=
  (Machine.run (stepNow Event.isSignUp) {} twoSignUps).get (by decide)

def afterTwoSignUps : Database :=
  twoSignedUp.db

theorem allComplete_afterTwoSignUps : AllComplete afterTwoSignUps :=
  (recordsComplete_run (fun _ isSignUp => isSignUp) (Option.some_get _).symm).users.allComplete

def annAndBob : Collection :=
  [⟨"ann", newUser "shoes1" "Ann" "ann@example.com" "ann"⟩,
    ⟨"bob", newUser "shoes2" "Bob" "bob@example.com" "bob"⟩].toAList

end System

end PriceTracker
