import PriceTracker.Dangling
import PriceTracker.FriendLists
import PriceTracker.Readers

/-!
# Accounts whose sign-up has taken effect

The four writes of a sign-up take effect one by one, between the writes of everybody else,
and a client acts for an account once all four have. Such an account has a complete record
from then on: a profile is written once, before the lists of its record, and a list is only
replaced by one that is not empty. A page learns the id of a user from a complete record, so
every id in a friend list belongs to a complete record, is the owner of the list, or is the
empty string.
-/

namespace PriceTracker

/-- The record that a write creates. -/
def Write.profileWritten : Write → Option String
  | .setUser uid _ => some uid
  | _ => none

/-- The record whose list a write replaces. -/
def Write.listOwner : Write → Option String
  | .setFriendList uid _ | .setItemList uid _ | .updateFriendList uid _
  | .updateItemList uid _ => some uid
  | _ => none

def Write.brings (write : Write) : Set String :=
  {uid | write.profileWritten = some uid}

def Write.touches (write : Write) : Set String :=
  {uid | write.listOwner = some uid}

def storedUsers (db : Database) : Set String :=
  {uid | (userRecord db uid).isSome}

def StoredComplete (db : Database) (uid : String) : Prop :=
  ∃ user, userRecord db uid = some user ∧ CompleteUser user

theorem storedUsers_apply (db : Database) (write : Write) :
    storedUsers (write.apply db) = storedUsers db ∪ (write.brings ∪ write.touches) := by
  ext uid
  simp only [storedUsers, Set.mem_ofPred_eq, Set.mem_union, Write.brings, Write.touches,
    userRecord_apply]
  cases write with
  | setItem newItemId itemAttr => simp [Write.profileWritten, Write.listOwner]
  | setUser owner newUserData | setFriendList owner list | updateFriendList owner list
  | setItemList owner list | updateItemList owner list =>
      by_cases same : uid = owner
      · simp [same, Write.profileWritten, Write.listOwner]
      · simp [same, Ne.symm same, Write.profileWritten, Write.listOwner]

theorem storedUsers_apply_of_met {db : Database} {write : Write}
    (met : write.touches ⊆ storedUsers db) :
    storedUsers (write.apply db) = storedUsers db ∪ write.brings := by
  rw [storedUsers_apply]
  ext uid
  constructor
  · rintro (old | isNew | touched)
    · exact Or.inl old
    · exact Or.inr isNew
    · exact Or.inl (met touched)
  · rintro (old | isNew)
    · exact Or.inl old
    · exact Or.inr (Or.inl isNew)

/-- User records have a username and an email, and no list is empty. -/
structure RecordsNamed (db : Database) : Prop where
  named : ∀ uid user, userRecord db uid = some user →
    (stringAt user firUsernameNode).isSome ∧ (stringAt user firEmailNode).isSome
  friendLists : ∀ uid friends, friendListOf db uid = some friends → friends ≠ []
  itemLists : ∀ uid itemIds, itemListOf db uid = some itemIds → itemIds ≠ []

theorem RecordsNamed.apply {db : Database} (records : RecordsNamed db) {write : Write}
    (wellFormed : write.WellFormed) (met : write.touches ⊆ storedUsers db) :
    RecordsNamed (write.apply db) := by
  constructor
  · intro uid user stored
    rw [userRecord_apply] at stored
    cases write with
    | setItem newItemId itemAttr => exact records.named uid user stored
    | setUser owner newUserData =>
        simp only at stored
        split_ifs at stored
        · simp only [Option.some.injEq] at stored
          exact stored ▸ wellFormed.1
        · exact records.named uid user stored
    | setFriendList owner list | updateFriendList owner list | setItemList owner list
    | updateItemList owner list =>
        simp only at stored
        split_ifs at stored
        · -- the record was there, and only one of its lists has changed
          have touched : (userRecord db owner).isSome := met rfl
          rcases Option.isSome_iff_exists.mp touched with ⟨before, wasStored⟩
          simp only [Option.some.injEq, wasStored, Option.getD_some] at stored
          subst stored
          simpa [stringAt_insert, firUsernameNode, firEmailNode, firFriendListNode,
            firItemListNode] using records.named owner before wasStored
        · exact records.named uid user stored
  · intro uid friends stored
    rcases friendListOf_apply_cases wellFormed stored with old | written
    · exact records.friendLists uid friends old
    · cases write <;>
        simp only [Write.friendListWritten, reduceCtorEq, Option.some.injEq,
          Prod.mk.injEq] at written
      all_goals
        rw [← written.2]
        exact wellFormed
  · intro uid itemIds stored
    rcases itemListOf_apply_cases wellFormed stored with old | written
    · exact records.itemLists uid itemIds old
    · cases write <;>
        simp only [Write.itemListWritten, reduceCtorEq, Option.some.injEq,
          Prod.mk.injEq] at written
      all_goals
        rw [← written.2]
        exact wellFormed

theorem RecordsNamed.complete_iff {db : Database} (records : RecordsNamed db) {uid : String} :
    StoredComplete db uid ↔ (friendListOf db uid).isSome ∧ (itemListOf db uid).isSome := by
  constructor
  · rintro ⟨user, stored, complete⟩
    rcases complete.friendList with ⟨friends, hasFriends, _⟩
    rcases complete.itemList with ⟨itemIds, hasItems, _⟩
    simp [friendListOf, itemListOf, stored, hasFriends, hasItems]
  · rintro ⟨hasFriends, hasItems⟩
    rcases Option.isSome_iff_exists.mp hasFriends with ⟨friends, friendsStored⟩
    rcases Option.isSome_iff_exists.mp hasItems with ⟨itemIds, itemsStored⟩
    rcases Option.bind_eq_some_iff.mp friendsStored with ⟨user, stored, isFriends⟩
    have isItems : stringsAt user firItemListNode = some itemIds := by
      simpa [itemListOf, stored] using itemsStored
    rcases records.named uid user stored with ⟨username, email⟩
    exact ⟨user, stored, username, email,
      ⟨friends, isFriends, records.friendLists uid friends friendsStored⟩,
      ⟨itemIds, isItems, records.itemLists uid itemIds itemsStored⟩⟩

/-- A record with an item list has what a feed reads of it. -/
theorem RecordsNamed.row {db : Database} (records : RecordsNamed db) {uid : String} {user : Record}
    (stored : userRecord db uid = some user) (hasItems : (itemListOf db uid).isSome) :
    (stringAt user firUsernameNode).isSome ∧
      ∃ itemIds, stringsAt user firItemListNode = some itemIds ∧ itemIds ≠ [] := by
  rcases Option.isSome_iff_exists.mp hasItems with ⟨itemIds, itemsStored⟩
  refine ⟨(records.named uid user stored).1, itemIds, ?_, records.itemLists uid itemIds itemsStored⟩
  simpa [itemListOf, stored] using itemsStored

/-- A record that a page shows is complete. -/
theorem RecordsNamed.complete_of_hasUserInfo {db : Database} (records : RecordsNamed db)
    {uid : String} {user : Record} (stored : userRecord db uid = some user)
    (hasInfo : HasUserInfo user) : StoredComplete db uid := by
  rw [records.complete_iff]
  simp [friendListOf, itemListOf, stored, hasInfo.friendList, hasInfo.itemList]

namespace System

variable {s next : System} {event : Event}

/-! ## Sign-ups that have taken effect -/

/-- The writes that have taken effect in a run. -/
def writesTaken (history : List (System × Event)) : List Write :=
  history.filterMap fun taken =>
    match taken.2 with
    | .persist client => (taken.1.queue client).head?
    | _ => none

/-- The event is a sign-up of the account, and its writes are among the given ones. -/
def SignUpIn (uid : String) (writes : List Write) : Event → Prop
  | .signUp _ newUid newItemId userName userEmail =>
      newUid = uid ∧ signUpWrites newUid newItemId userName userEmail ⊆ writes
  | _ => False

/-- The four writes of the account's sign-up have taken effect. -/
def SignedUp (history : List (System × Event)) (uid : String) : Prop :=
  ∃ taken ∈ history, SignUpIn uid (writesTaken history) taken.2

/-- A page is opened for an account whose sign-up has taken effect. -/
def OpensSignedUp (history : List (System × Event)) (_ : System) : Event → Prop
  | .viewDidLoad _ _ userID _ => SignedUp history userID
  | _ => True

instance (uid : String) (writes : List Write) : DecidablePred (SignUpIn uid writes)
  | .signUp _ newUid newItemId userName userEmail =>
      inferInstanceAs (Decidable (newUid = uid ∧
        signUpWrites newUid newItemId userName userEmail ⊆ writes))
  | .viewDidLoad _ _ _ _ | .viewWillAppear _ | .deliver _ _ _ | .press _ _ | .persist _
  | .stop _ => .isFalse id

instance (history : List (System × Event)) (uid : String) : Decidable (SignedUp history uid) :=
  inferInstanceAs (Decidable (∃ taken ∈ history, SignUpIn uid (writesTaken history) taken.2))

instance (history : List (System × Event)) (s : System) : DecidablePred (OpensSignedUp history s)
  | .viewDidLoad _ _ userID _ => inferInstanceAs (Decidable (SignedUp history userID))
  | .signUp _ _ _ _ _ | .viewWillAppear _ | .deliver _ _ _ | .press _ _ | .persist _
  | .stop _ => .isTrue trivial

/-! ## Profiles are written once and first -/

/-- Each waiting profile is the only one for its record, which is not there yet, and a waiting
list finds its record. -/
structure ProfilesFirst (s : System) : Prop where
  fresh : Outbox.Fresh Write.profileWritten {uid | uid ∈ s.accounts} (storedUsers s.db) s.queue
  supplied : ∀ client,
    Outbox.Supplied Write.brings Write.touches (storedUsers s.db) (s.queue client)
  records : RecordsNamed s.db
  named : "" ∉ s.accounts

/-- A button is pressed for an account whose profile is stored, or waits on the same client. -/
def PressesOwned (s : System) : Event → Prop
  | .press page _ => ∀ session ∈ s.running page,
      session.userID ∈ Outbox.available Write.brings (storedUsers s.db) (s.queue session.client)
  | _ => True

theorem profilesFirst_initial : ({} : System).ProfilesFirst where
  fresh := by
    constructor <;> simp [storedUsers, userRecord, Outbox.created]
  supplied := fun _ => .nil
  records := by
    constructor <;> simp [userRecord, friendListOf, itemListOf]
  named := by simp

/-- The account whose record an event starts. -/
def newAccount : Event → Option String
  | .signUp _ uid _ _ _ => some uid
  | _ => none

theorem created_issued {client : Nat} {writes : List Write}
    (issues : s.Issues event client writes) :
    Outbox.created Write.profileWritten writes = (newAccount event).toList := by
  rcases issues with _ | @⟨page, session, button, after, writes, isRunning, hasButton⟩
  · rfl
  · cases button with
    | save form newItemId =>
        rcases (Page.press_save hasButton).2.2 with ⟨itemAttr, _, rfl⟩
        rfl
    | follow =>
        rcases (Page.press_follow hasButton).2.2 with ⟨_, _, rfl⟩ | ⟨_, _, rfl⟩ <;> rfl

theorem newAccount_step (stepped : s.step event = some next) {uid : String}
    (isNew : newAccount event = some uid) : uid ∉ s.accounts ∧ uid ∈ next.accounts := by
  cases event with
  | signUp client owner newItemId userName userEmail =>
      rcases step_signUp stepped with ⟨newOwner, _, _, rfl⟩
      simp only [newAccount, Option.some.injEq] at isNew
      subst isNew
      exact ⟨newOwner, List.mem_cons_self⟩
  | _ => simp [newAccount] at isNew

theorem ProfilesFirst.met (first : s.ProfilesFirst) {client : Nat} {write : Write}
    {rest : List Write} (queued : s.queue client = write :: rest) :
    write.touches ⊆ storedUsers s.db := by
  have supplied := first.supplied client
  rw [queued, Outbox.supplied_cons_iff] at supplied
  exact supplied.1

theorem fresh_step (first : s.ProfilesFirst) (stepped : s.step event = some next) :
    Outbox.Fresh Write.profileWritten {uid | uid ∈ next.accounts} (storedUsers next.db)
      next.queue := by
  have accounts : {uid | uid ∈ s.accounts} ⊆ {uid | uid ∈ next.accounts} :=
    fun uid isAccount => accounts_subset_step stepped isAccount
  rcases effect_step stepped with ⟨sameDb, sameQueue⟩ | ⟨issuer, writes, issues, sameDb, extended⟩ |
    ⟨issuer, write, rest, _, queued, applied, shortened⟩ | ⟨issuer, _, sameDb, emptied⟩
  · rw [sameDb]
    exact first.fresh.dropped accounts fun client => Or.inl (congrFun sameQueue client)
  · rw [sameDb]
    have isCreated := created_issued issues
    refine first.fresh.issued accounts ?_ ?_ extended
    · intro uid uid_mem
      rw [isCreated, Option.mem_toList] at uid_mem
      exact newAccount_step stepped uid_mem
    · rw [isCreated]
      cases newAccount event <;> simp
  · refine first.fresh.persisted accounts queued ?_ shortened
    intro uid isStored
    rw [applied, storedUsers_apply_of_met (first.met queued)] at isStored
    exact isStored.imp_right fun isNew => Option.mem_toList.mpr isNew
  · rw [sameDb]
    exact first.fresh.dropped accounts (queue_of_stopped emptied)

theorem supplied_users_issued {client : Nat} {writes : List Write} (owned : s.PressesOwned event)
    (issues : s.Issues event client writes) :
    Outbox.Supplied Write.brings Write.touches
      (Outbox.available Write.brings (storedUsers s.db) (s.queue client)) writes := by
  rcases issues with @⟨_, uid, newItemId, userName, userEmail, _, _⟩ |
    @⟨page, session, button, after, writes, isRunning, hasButton⟩
  · refine .cons ?_ (.cons ?_ (.cons ?_ (.cons ?_ .nil)))
    · simp [Write.touches, Write.listOwner]
    · simp [Write.touches, Write.listOwner]
    · -- the profile was issued just before the lists
      intro owner touched
      exact Or.inr touched
    · intro owner touched
      exact Or.inl (Or.inr touched)
  · replace owned := owned session isRunning
    cases button with
    | save form newItemId =>
        rcases (Page.press_save hasButton).2.2 with ⟨itemAttr, _, rfl⟩
        refine .cons ?_ (.cons ?_ .nil)
        · simp [Write.touches, Write.listOwner]
        · intro owner touched
          simp only [Write.touches, Write.listOwner, Set.mem_ofPred_eq, Option.some.injEq] at touched
          exact Or.inl (touched ▸ owned)
    | follow =>
        rcases (Page.press_follow hasButton).2.2 with ⟨_, _, rfl⟩ | ⟨_, _, rfl⟩
        · exact .nil
        · refine .cons ?_ .nil
          intro owner touched
          simp only [Write.touches, Write.listOwner, Set.mem_ofPred_eq, Option.some.injEq] at touched
          exact touched ▸ owned

theorem supplied_users_step (first : s.ProfilesFirst) (owned : s.PressesOwned event)
    (stepped : s.step event = some next) (client : Nat) :
    Outbox.Supplied Write.brings Write.touches (storedUsers next.db) (next.queue client) := by
  rcases effect_step stepped with ⟨sameDb, sameQueue⟩ | ⟨issuer, writes, issues, sameDb, extended⟩ |
    ⟨issuer, write, rest, _, queued, applied, shortened⟩ | ⟨issuer, _, sameDb, emptied⟩
  · rw [sameDb, sameQueue]
    exact first.supplied client
  · rw [sameDb]
    exact Outbox.supplied_issued first.supplied (supplied_users_issued owned issues) extended client
  · rw [applied, storedUsers_apply_of_met (first.met queued)]
    exact Outbox.supplied_persisted first.supplied queued (Set.Subset.refl _) shortened client
  · rw [sameDb]
    exact Outbox.supplied_dropped first.supplied (queue_of_stopped emptied) client

theorem records_step (wellFormed : s.QueuesWellFormed) (first : s.ProfilesFirst)
    (stepped : s.step event = some next) : RecordsNamed next.db := by
  rcases db_step stepped with same | ⟨client, write, rest, _, queued, applied⟩
  · rw [same]
    exact first.records
  · rw [applied]
    exact first.records.apply (wellFormed client write (by simp [queued])) (first.met queued)

/-- A profile that takes effect finds no record. -/
theorem notMem_storedUsers_of_front (first : s.ProfilesFirst) {client : Nat} {uid : String}
    {newUserData : Record} {rest : List Write}
    (queued : s.queue client = .setUser uid newUserData :: rest) : uid ∉ storedUsers s.db := by
  apply first.fresh.absent client uid
  simp [queued, Outbox.created, Write.profileWritten]

/-- No step removes a list. -/
theorem isSome_lists_step (first : s.ProfilesFirst) (stepped : s.step event = some next)
    (uid : String) :
    ((friendListOf s.db uid).isSome → (friendListOf next.db uid).isSome) ∧
      ((itemListOf s.db uid).isSome → (itemListOf next.db uid).isSome) := by
  rcases db_step stepped with same | ⟨client, write, rest, _, queued, applied⟩
  · rw [same]
    exact ⟨id, id⟩
  · rw [applied, friendListOf_apply, itemListOf_apply]
    cases write with
    | setUser owner newUserData =>
        have different : ∀ {field : String},
            ((userRecord s.db uid).bind fun user => stringsAt user field).isSome → uid ≠ owner := by
          rintro field hasList rfl
          apply notMem_storedUsers_of_front first queued
          cases stored : userRecord s.db uid with
          | none => simp [stored] at hasList
          | some user => simp [storedUsers, stored]
        constructor
        · intro hasFriends
          simpa [different hasFriends] using hasFriends
        · intro hasItems
          simpa [different hasItems] using hasItems
    | setItem newItemId itemAttr => exact ⟨id, id⟩
    | setFriendList owner list | updateFriendList owner list | setItemList owner list
    | updateItemList owner list =>
        by_cases same : uid = owner <;> simp [same]

/-- A complete record stays complete. -/
theorem complete_step (wellFormed : s.QueuesWellFormed) (first : s.ProfilesFirst)
    (stepped : s.step event = some next) {uid : String} (complete : StoredComplete s.db uid) :
    StoredComplete next.db uid := by
  rw [first.records.complete_iff] at complete
  rw [(records_step wellFormed first stepped).complete_iff]
  exact ⟨(isSome_lists_step first stepped uid).1 complete.1,
    (isSome_lists_step first stepped uid).2 complete.2⟩

theorem profilesFirst_step (wellFormed : s.QueuesWellFormed) (first : s.ProfilesFirst)
    (owned : s.PressesOwned event) (stepped : s.step event = some next) : next.ProfilesFirst where
  fresh := fresh_step first stepped
  supplied := supplied_users_step first owned stepped
  records := records_step wellFormed first stepped
  named := by
    intro named_mem
    cases event with
    | signUp client uid newItemId userName userEmail =>
        rcases step_signUp stepped with ⟨_, named, _, rfl⟩
        rcases List.mem_cons.mp named_mem with same | old
        · exact named same.symm
        · exact first.named old
    | _ =>
        rw [accounts_step stepped rfl] at named_mem
        exact first.named named_mem

/-! ## What the writes of a run leave -/

/-- What a write leaves in the database. -/
def LeftBy (db : Database) : Write → Prop
  | .setUser uid _ => uid ∈ storedUsers db
  | .setFriendList uid _ | .updateFriendList uid _ => (friendListOf db uid).isSome
  | .setItemList uid _ | .updateItemList uid _ => (itemListOf db uid).isSome
  | .setItem _ _ => True

theorem leftBy_apply (db : Database) (write : Write) : LeftBy (write.apply db) write := by
  cases write <;> simp [LeftBy, friendListOf_apply, itemListOf_apply, storedUsers, userRecord_apply]

theorem storedUsers_subset_step (stepped : s.step event = some next) :
    storedUsers s.db ⊆ storedUsers next.db := by
  rcases db_step stepped with same | ⟨_, write, _, _, _, applied⟩
  · rw [same]
  · rw [applied, storedUsers_apply]
    exact Set.subset_union_left

theorem leftBy_step (first : s.ProfilesFirst) (stepped : s.step event = some next) {write : Write}
    (left : LeftBy s.db write) : LeftBy next.db write := by
  cases write with
  | setItem newItemId itemAttr => trivial
  | setUser uid newUserData => exact storedUsers_subset_step stepped left
  | setFriendList uid friends | updateFriendList uid friends =>
      exact (isSome_lists_step first stepped uid).1 left
  | setItemList uid itemIds | updateItemList uid itemIds =>
      exact (isSome_lists_step first stepped uid).2 left

theorem mem_writesTaken_concat {history : List (System × Event)} {write : Write}
    (taken : write ∈ writesTaken (history ++ [(s, event)])) :
    write ∈ writesTaken history ∨
      ∃ client rest, event = .persist client ∧ s.queue client = write :: rest := by
  simp only [writesTaken, List.filterMap_append, List.mem_append] at taken
  rcases taken with old | isNew
  · exact Or.inl old
  · cases event with
    | persist client =>
        cases queued : s.queue client with
        | nil => simp [queued] at isNew
        | cons front rest =>
            simp only [queued, List.head?_cons, List.filterMap_cons, List.filterMap_nil,
              List.mem_singleton] at isNew
            exact Or.inr ⟨client, rest, rfl, isNew ▸ queued⟩
    | _ => simp at isNew

theorem leftBy_writesTaken_step {history : List (System × Event)} (first : s.ProfilesFirst)
    (left : ∀ write ∈ writesTaken history, LeftBy s.db write)
    (stepped : s.step event = some next) :
    ∀ write ∈ writesTaken (history ++ [(s, event)]), LeftBy next.db write := by
  intro write write_mem
  rcases mem_writesTaken_concat write_mem with old | ⟨client, rest, rfl, queued⟩
  · exact leftBy_step first stepped (left write old)
  · rcases step_persist stepped with ⟨front, later, waiting, rfl⟩
    rw [queued, List.cons.injEq] at waiting
    rw [waiting.1]
    exact leftBy_apply s.db front

theorem complete_of_signedUp {history : List (System × Event)} (first : s.ProfilesFirst)
    (left : ∀ write ∈ writesTaken history, LeftBy s.db write) {uid : String}
    (signedUp : SignedUp history uid) : StoredComplete s.db uid := by
  rcases signedUp with ⟨⟨before, event⟩, _, isSignUp⟩
  cases event with
  | signUp client newUid newItemId userName userEmail =>
      rcases isSignUp with ⟨rfl, taken⟩
      rw [first.records.complete_iff]
      exact ⟨left (.setFriendList newUid [newUid]) (taken (by simp [signUpWrites])),
        left (.setItemList newUid [newItemId]) (taken (by simp [signUpWrites]))⟩
  | _ => exact absurd isSignUp id

/-! ## Runs in which clients wait for their sign-up -/

/-- Pages are open for complete records. -/
def SignedInComplete (s : System) : Prop :=
  ∀ page session, s.sessions page = some session → StoredComplete s.db session.userID

theorem SignedInComplete.pressesOwned (signedIn : s.SignedInComplete) (event : Event) :
    s.PressesOwned event := by
  cases event with
  | press page button =>
      intro session isRunning
      rcases signedIn page session (running_eq_some_iff.mp isRunning).1 with ⟨user, stored, _⟩
      exact Outbox.subset_available (Option.isSome_of_mem stored)
  | _ => trivial

theorem signedInComplete_step {history : List (System × Event)} (wellFormed : s.QueuesWellFormed)
    (first : s.ProfilesFirst) (left : ∀ write ∈ writesTaken history, LeftBy s.db write)
    (signedIn : s.SignedInComplete) (opens : OpensSignedUp history s event)
    (stepped : s.step event = some next) : next.SignedInComplete := by
  intro page session isOpen
  apply complete_step wellFormed first stepped
  rcases (sessionOrigin_step stepped isOpen).signedIn with
    ⟨before, wasOpen, sameUser, _⟩ | ⟨screen, rfl, _⟩
  · rw [sameUser]
    exact signedIn page before wasOpen
  · exact complete_of_signedUp first left opens

theorem profilesFirst_run {events : List Event} (reached : Machine.run step {} events = some s)
    (signedUp : Machine.EachStep step OpensSignedUp {} events) :
    s.ProfilesFirst ∧ s.SignedInComplete ∧
      ∀ write ∈ writesTaken (Machine.trace step {} events), LeftBy s.db write := by
  refine Machine.invariant_of_eachStep
    (fun history s => s.ProfilesFirst ∧ s.SignedInComplete ∧
      ∀ write ∈ writesTaken history, LeftBy s.db write) ?_ ?_ reached signedUp
  · exact ⟨profilesFirst_initial, by simp [SignedInComplete], by simp [writesTaken]⟩
  · rintro events state event next toState ⟨first, signedIn, left⟩ opens stepped
    have wellFormed := queuesWellFormed_run toState
    exact ⟨profilesFirst_step wellFormed first (signedIn.pressesOwned event) stepped,
      signedInComplete_step wellFormed first left signedIn opens stepped,
      leftBy_writesTaken_step first left stepped⟩

/-! ## Where the ids in friend lists come from -/

/-- The empty string, or a user whose record is complete. -/
def NamesComplete (db : Database) (friend : String) : Prop :=
  friend = "" ∨ StoredComplete db friend

/-- A friend list names its owner and complete records. -/
def OthersComplete (db : Database) (uid : String) (friends : List String) : Prop :=
  ∀ friend ∈ friends, friend = uid ∨ NamesComplete db friend

/-- All friend lists do so, and the users that search pages show are complete. -/
structure FriendsComplete (s : System) : Prop where
  lists : FriendLists (OthersComplete s.db) s
  shown : ∀ page session, s.sessions page = some session → session.page.isUserCopy = true →
    NamesComplete s.db session.page.followed

theorem friendsComplete_initial : ({} : System).FriendsComplete where
  lists := friendLists_initial _
  shown := by simp

/-- Follow is pressed on a search page, or for a complete record. -/
def FollowsComplete (s : System) : Event → Prop
  | .press page .follow => ∀ session ∈ s.running page,
      session.page.isUserCopy = true ∨ StoredComplete s.db session.page.followed
  | _ => True

theorem FollowsOnUserCopy.followsComplete (onUserCopy : s.FollowsOnUserCopy event) :
    s.FollowsComplete event := by
  cases event with
  | press page button =>
      cases button with
      | follow => exact fun session isRunning => Or.inl (onUserCopy session isRunning)
      | save form newItemId => trivial
  | _ => trivial

theorem namesComplete_step (wellFormed : s.QueuesWellFormed) (first : s.ProfilesFirst)
    (stepped : s.step event = some next) {friend : String} (names : NamesComplete s.db friend) :
    NamesComplete next.db friend :=
  names.imp_right (complete_step wellFormed first stepped)

/-- Follow extends the list of its page by a complete record. The list of a feed page belongs to the
user that it shows, who is complete as well then. -/
theorem othersComplete_followed (friends : s.FriendsComplete) {page : Nat} {session : Session}
    (follows : s.FollowsComplete (.press page .follow))
    (isRunning : s.running page = some session) :
    OthersComplete s.db session.userID (session.page.friends ++ [session.page.followed]) ∧
      OthersComplete s.db (session.page.friendsOwner session.userID)
        (session.page.friends ++ [session.page.followed]) := by
  have isOpen := (running_eq_some_iff.mp isRunning).1
  have followed : NamesComplete s.db session.page.followed :=
    (follows session isRunning).elim (friends.shown page session isOpen) Or.inr
  have listed : OthersComplete s.db (session.page.friendsOwner session.userID)
      session.page.friends := by
    rcases friends.lists.onPage page session isOpen with none | others
    · simp [none, OthersComplete]
    · exact others
  have openedFor := friends.lists.openedFor page session isOpen
  have names : ∀ friend ∈ session.page.friends,
      friend = session.userID ∨ NamesComplete s.db friend := by
    intro friend friend_mem
    rcases listed friend friend_mem with rfl | names
    · cases kind : session.page with
      | user vc =>
          rw [kind] at openedFor followed
          have same : vc.uid = vc.friendIDFromFriendFeed := openedFor
          right
          rw [Page.friendsOwner, same]
          exact followed
      | _ => exact Or.inl rfl
    · exact Or.inr names
  constructor
  · intro friend friend_mem
    rcases List.mem_append.mp friend_mem with old | isFollowed
    · exact names friend old
    · exact Or.inr (List.mem_singleton.mp isFollowed ▸ followed)
  · intro friend friend_mem
    rcases List.mem_append.mp friend_mem with old | isFollowed
    · exact listed friend old
    · exact Or.inr (List.mem_singleton.mp isFollowed ▸ followed)

theorem friendsComplete_lists (wellFormed : s.QueuesWellFormed) (first : s.ProfilesFirst)
    (friends : s.FriendsComplete) (follows : s.FollowsComplete event)
    (stepped : s.step event = some next) : FriendLists (OthersComplete next.db) next := by
  have grows : ∀ uid list, OthersComplete s.db uid list → OthersComplete next.db uid list := by
    intro uid list others friend friend_mem
    exact (others friend friend_mem).imp_right (namesComplete_step wellFormed first stepped)
  refine friendLists_step wellFormed friends.lists grows ?_ ?_ stepped
  · intro client uid newItemId userName userEmail _ friend friend_mem
    exact Or.inl (List.mem_singleton.mp friend_mem)
  · rintro page session rfl isRunning _
    rcases othersComplete_followed friends follows isRunning with ⟨written, onPage⟩
    exact ⟨grows _ _ written, grows _ _ onPage⟩

theorem friendsComplete_shown (wellFormed : s.QueuesWellFormed) (first : s.ProfilesFirst)
    (friends : s.FriendsComplete) (stepped : s.step event = some next) {page : Nat}
    {session : Session} (isOpen : next.sessions page = some session)
    (isSearch : session.page.isUserCopy = true) :
    NamesComplete next.db session.page.followed := by
  apply namesComplete_step wellFormed first stepped
  rcases sessionOrigin_step stepped isOpen with
    ⟨before, wasOpen, _, _, samePage, _⟩ | ⟨client, userID, screen, _, _, rfl⟩ |
    ⟨before, callback, snapshot, _, wasRunning, taken, _, _, ran⟩ |
    ⟨before, button, writes, _, wasRunning, _, _, hasButton⟩
  · rw [samePage] at isSearch ⊢
    exact friends.shown page before wasOpen isSearch
  · exact Or.inl (Screen.followed_viewDidLoad isSearch)
  · rcases Page.followed_callback ran with same | ⟨isUsers, user, found, hasInfo⟩
    · rw [Page.isUserCopy_callback ran] at isSearch
      rw [same]
      exact friends.shown page before (running_eq_some_iff.mp wasRunning).1 isSearch
    · rw [taken.lookup, isUsers] at found
      exact Or.inr (first.records.complete_of_hasUserInfo found hasInfo)
  · rw [Page.followed_press hasButton isSearch]
    rw [Page.isUserCopy_press hasButton] at isSearch
    exact friends.shown page before (running_eq_some_iff.mp wasRunning).1 isSearch

theorem friendsComplete_step (wellFormed : s.QueuesWellFormed) (first : s.ProfilesFirst)
    (friends : s.FriendsComplete) (follows : s.FollowsComplete event)
    (stepped : s.step event = some next) : next.FriendsComplete where
  lists := friendsComplete_lists wellFormed first friends follows stepped
  shown := fun _ _ isOpen isSearch =>
    friendsComplete_shown wellFormed first friends stepped isOpen isSearch

theorem friendsComplete_run {events : List Event} (reached : Machine.run step {} events = some s)
    (signedUp : Machine.EachStep step OpensSignedUp {} events)
    (onUserCopy : Machine.EachStep step (fun _ => FollowsOnUserCopy) {} events) :
    s.FriendsComplete := by
  refine Machine.run_induction (motive := fun events s =>
    Machine.EachStep step OpensSignedUp {} events →
      Machine.EachStep step (fun _ => FollowsOnUserCopy) {} events → s.FriendsComplete)
    (fun _ _ => friendsComplete_initial) ?_ reached signedUp onUserCopy
  intro events state event next toState ih stepped signedUp onUserCopy
  rcases (Machine.eachStep_concat toState event).mp signedUp with ⟨signedUpBefore, _⟩
  rcases (Machine.eachStep_concat toState event).mp onUserCopy with ⟨onUserCopyBefore, follows⟩
  exact friendsComplete_step (queuesWellFormed_run toState)
    (profilesFirst_run toState signedUpBefore).1 (ih signedUpBefore onUserCopyBefore)
    (FollowsOnUserCopy.followsComplete follows) stepped

/-! ## Pages that read users -/

/-- The reads of `users` apart from `getUserInfo`. -/
def ownReads : List Callback :=
  [.getFriendIDs, .getFriendNamesAndRecentItemIDs, .getUserItemID, .usersCallback,
    .getCurrentUserInfo, .getUserEmails]

/-- The users that a feed lists have what it reads of them. -/
theorem friendRow_of_listed (first : s.ProfilesFirst) (friends : s.FriendsComplete)
    {page : Nat} {session : Session} (isOpen : s.sessions page = some session) {vc : FriendFeedVC}
    (isFeed : session.page = .friendFeed vc)
    (ownItems : session.userID ∈ vc.friendList → session.userID ∈ storedUsers s.db →
      (itemListOf s.db session.userID).isSome)
    {uid : String} {user : Record} (stored : userRecord s.db uid = some user)
    (listed : uid ∈ vc.friendList) :
    (stringAt user firUsernameNode).isSome ∧
      ∃ itemIds, stringsAt user firItemListNode = some itemIds ∧ itemIds ≠ [] := by
  have isStored : uid ∈ storedUsers s.db := Option.isSome_of_mem stored
  apply first.records.row stored
  have others := friends.lists.onPage page session isOpen
  rw [isFeed] at others
  rcases others with none | others
  · exact absurd listed (by simp [show vc.friendList = [] from none])
  · rcases others uid listed with rfl | rfl | complete
    · exact ownItems listed isStored
    · exact absurd (first.fresh.present_used isStored) first.named
    · exact (first.records.complete_iff.mp complete).2

theorem finds_of_complete (first : s.ProfilesFirst) (signedIn : s.SignedInComplete)
    (friends : s.FriendsComplete) {page : Nat} {session : Session}
    (isOpen : s.sessions page = some session) {callback : Callback}
    (isOwnRead : callback ∈ ownReads) : session.page.Finds s.db session.userID callback := by
  rcases first.records.complete_iff.mp (signedIn page session isOpen) with
    ⟨hasFriends, hasItems⟩
  simp only [ownReads, List.mem_cons, List.not_mem_nil, or_false] at isOwnRead
  rcases isOwnRead with rfl | rfl | rfl | rfl | rfl | rfl
  · cases session.page with
    | friendFeed vc => exact fun _ => hasFriends
    | _ => trivial
  · cases kind : session.page with
    | friendFeed vc =>
        intro uid user stored isFriend
        exact friendRow_of_listed first friends isOpen kind (fun _ _ => hasItems) stored isFriend
    | _ => trivial
  · cases session.page with
    | profile vc => exact fun _ => hasItems
    | _ => trivial
  · cases session.page with
    | addEntry vc => exact fun _ => hasItems
    | _ => trivial
  · cases session.page with
    | userCopy vc => exact fun _ => hasFriends
    | _ => trivial
  · cases session.page with
    | peopleSearch vc => exact fun uid user stored => (first.records.named uid user stored).2
    | _ => trivial

/-- In every run in which clients act for an account only once its sign-up has taken effect, and
follow on search pages, no read of `users` other than `getUserInfo` can fail on an open page. The
users in the list of a feed have a username and an item list that is not empty. -/
theorem isSome_ownRead_of_signedUp {events : List Event}
    (reached : Machine.run step {} events = some s)
    (signedUp : Machine.EachStep step OpensSignedUp {} events)
    (onUserCopy : Machine.EachStep step (fun _ => FollowsOnUserCopy) {} events) {page : Nat}
    {session : Session} (isRunning : s.running page = some session) {callback : Callback}
    (isPending : callback ∈ session.pending) (isOwnRead : callback ∈ ownReads)
    {snapshot : Collection} (taken : Store.IsSnapshot snapshot (s.db firUsersNode)) :
    (session.page.callback session.userID snapshot callback).isSome ∧
      ∀ vc, session.page = .friendFeed vc → ∀ key user, snapshot.lookup key = some user →
        key ∈ vc.friendList → (stringAt user firUsernameNode).isSome ∧
          ∃ itemIds, stringsAt user firItemListNode = some itemIds ∧ itemIds ≠ [] := by
  rcases profilesFirst_run reached signedUp with ⟨first, signedIn, _⟩
  have friends := friendsComplete_run reached signedUp onUserCopy
  have isOpen := (running_eq_some_iff.mp isRunning).1
  have readsUsers : callback.node = firUsersNode := by
    simp only [ownReads, List.mem_cons, List.not_mem_nil, or_false] at isOwnRead
    rcases isOwnRead with rfl | rfl | rfl | rfl | rfl | rfl <;> rfl
  constructor
  · rw [Page.isSome_callback_iff (itemsComplete_run reached) (readsUsers ▸ taken)]
    exact finds_of_complete first signedIn friends isOpen isOwnRead
  · intro vc isFeed key user found isFriend
    rw [taken.lookup] at found
    exact friendRow_of_listed first friends isOpen isFeed
      (fun _ _ => (first.records.complete_iff.mp (signedIn page session isOpen)).2) found isFriend

/-- `ann` and `bob` have signed up, `ann` follows `bob` and opens her feed. -/
def feedOpened : List Event :=
  [.signUp 0 "ann" "shoes1" "Ann" "ann@example.com", .persist 0,
    .signUp 1 "bob" "shoes2" "Bob" "bob@example.com", .persist 1, .persist 0, .persist 1,
    .persist 0, .persist 0, .persist 1, .persist 1,
    .viewDidLoad 0 0 "ann" (.userCopy "bob@example.com"), .deliver 0 .getUserInfo annAndBob,
    .deliver 0 .getCurrentUserInfo annAndBob, .press 0 .follow, .persist 0,
    .viewDidLoad 1 0 "ann" .friendFeed]

/-- Her list is read, and only two writes of the sign-up of `cat` have taken effect when the feed
reads its friends. -/
def feedDuringSignUp : List Event :=
  let db := ((Machine.run step {} feedOpened).get (by decide)).db
  feedOpened ++ [.deliver 1 .getFriendIDs (db firUsersNode),
    .signUp 2 "cat" "shoes3" "Cat" "cat@example.com", .persist 2, .persist 2]

/-- The feed lists both `ann` and `bob` then. -/
theorem isSome_ownRead_feedDuringSignUp :
    let s := (Machine.run step {} feedDuringSignUp).get (by decide)
    let session := (s.running 1).get (by decide)
    session.page.friends = ["ann", "bob"] ∧
      (session.page.callback session.userID (s.db firUsersNode)
        .getFriendNamesAndRecentItemIDs).isSome ∧
      ∀ vc, session.page = .friendFeed vc → ∀ key user,
        (s.db firUsersNode).lookup key = some user → key ∈ vc.friendList →
          (stringAt user firUsernameNode).isSome ∧
            ∃ itemIds, stringsAt user firItemListNode = some itemIds ∧ itemIds ≠ [] := by
  intro s session
  refine ⟨by decide, ?_⟩
  exact isSome_ownRead_of_signedUp (Option.some_get _).symm
    (Machine.eachStep_of_forall_lt (by decide)) (Machine.eachStep_of_forall_mem (by decide))
    (Option.some_get _).symm
    (show Callback.getFriendNamesAndRecentItemIDs ∈ session.pending by decide) (by decide) (.refl _)

end System

end PriceTracker
