import PriceTracker.SignedUp
import PriceTracker.Library.Unwinding

/-!
# The clients of one account

Some clients act for one account: they sign it up, wait until the four writes of the sign-up
have taken effect, and then open entry pages and profile pages. All other clients never act
for that account. In such a run nothing that a foreign client has issued can change the item
list of the account or one of its items, and the pages of the account only hold ids that the
account has taken itself.
-/

namespace PriceTracker

/-- What a client does in an event; what a delivered snapshot holds is left out. -/
def Event.withoutSnapshot : Event → Event
  | .deliver page callback _ => .deliver page callback ∅
  | event => event

/-- The same step of a client is a delivery of two snapshots, or the same event. -/
theorem Event.deliver_or_eq_of_withoutSnapshot {event other : Event}
    (same : event.withoutSnapshot = other.withoutSnapshot) :
    (∃ page callback snapshot otherSnapshot,
      event = .deliver page callback snapshot ∧ other = .deliver page callback otherSnapshot) ∨
      (event = other ∧ ∀ page callback snapshot, event ≠ .deliver page callback snapshot) := by
  cases event with
  | deliver page callback snapshot =>
      cases other with
      | deliver otherPage otherCallback otherSnapshot =>
          simp only [withoutSnapshot, Event.deliver.injEq, and_true] at same
          rcases same with ⟨rfl, rfl⟩
          exact Or.inl ⟨page, callback, snapshot, otherSnapshot, rfl, rfl⟩
      | _ => cases same
  | _ =>
      cases other with
      | deliver otherPage otherCallback otherSnapshot => cases same
      | _ => exact Or.inr ⟨same, by simp⟩

/-- The key that an event takes from `childByAutoId`. -/
def Event.key : Event → Option String
  | .signUp _ _ newItemId _ _ => some newItemId
  | .press _ button => button.newKey
  | _ => none

@[simp]
theorem Event.key_withoutSnapshot (event : Event) : event.withoutSnapshot.key = event.key := by
  cases event <;> rfl

/-- A write that stores no profile and no item list of the account, and none of the items. -/
def Write.Spares (uid : String) (keys : List String) : Write → Prop
  | .setItem newItemId _ => newItemId ∉ keys
  | .setUser owner _ | .setItemList owner _ | .updateItemList owner _ => owner ≠ uid
  | .setFriendList _ _ | .updateFriendList _ _ => True

theorem Write.Spares.itemListOf {uid : String} {keys : List String} {write : Write}
    (spares : write.Spares uid keys) (db : Database) :
    itemListOf (write.apply db) uid = PriceTracker.itemListOf db uid := by
  rw [itemListOf_apply]
  cases write with
  | setUser owner newUserData | setItemList owner itemIds | updateItemList owner itemIds =>
      exact if_neg (Ne.symm spares)
  | _ => rfl

theorem Write.Spares.itemRecord {uid : String} {keys : List String} {write : Write}
    (spares : write.Spares uid keys) (db : Database) {key : String} (isOwn : key ∈ keys) :
    itemRecord (write.apply db) key = PriceTracker.itemRecord db key := by
  rw [itemRecord_apply]
  cases write with
  | setItem newItemId itemAttr =>
      have different : key ≠ newItemId := fun same => spares (same ▸ isOwn)
      exact if_neg different
  | _ => rfl

/-- The pages that the account opens, with ids of its own items only. -/
def Page.ShowsOnly (keys : List String) : Page → Prop
  | .addEntry _ => True
  | .profile vc => vc.IDList ⊆ keys
  | _ => False

theorem Page.ShowsOnly.mono {keys larger : List String} (grows : keys ⊆ larger) {page : Page}
    (shows : page.ShowsOnly keys) : page.ShowsOnly larger := by
  cases page with
  | addEntry vc => trivial
  | profile vc => exact List.Subset.trans shows grows
  | _ => exact absurd shows id

theorem Screen.showsOnly_viewDidLoad {screen : Screen}
    (isOwn : screen = .addEntry ∨ screen = .profile) (keys : List String) :
    screen.viewDidLoad.1.ShowsOnly keys := by
  rcases isOwn with rfl | rfl
  · trivial
  · exact List.nil_subset keys

/-- A profile page takes its ids from the item list of its account. -/
theorem Page.ShowsOnly.callback {keys : List String} {page next : Page} {userID : String}
    {callback : Callback} {snapshot : Collection} {db : Database} (shows : page.ShowsOnly keys)
    (listed : ∀ itemIds, itemListOf db userID = some itemIds → itemIds ⊆ keys)
    (taken : Store.IsSnapshot snapshot (db callback.node))
    (ran : page.callback userID snapshot callback = some next) : next.ShowsOnly keys := by
  cases Page.callback_effect ran with
  | entryIds own => trivial
  | profileIds own =>
      rcases readOwnList_cases own with rfl | ⟨user, isUser, hasItems⟩
      · exact shows
      · apply listed
        rw [taken.lookup] at isUser
        exact Option.bind_eq_some_iff.mpr ⟨user, isUser, hasItems⟩
  | profileItems read => exact shows
  | ignored isForeign => exact shows
  | _ => exact absurd shows id

theorem Page.ShowsOnly.press {keys : List String} {page next : Page} {userID : String}
    {button : Button} {writes : List Write} (shows : page.ShowsOnly keys)
    (hasButton : page.press userID button = some (next, writes)) : next.ShowsOnly keys := by
  cases Page.press_effect hasButton with
  | save => trivial
  | _ => exact absurd shows id

namespace System

/-- The client that takes an event. -/
def actor (s : System) : Event → Option Nat
  | .signUp client _ _ _ _ | .viewDidLoad _ client _ _ | .persist client | .stop client =>
      some client
  | .viewWillAppear page | .deliver page _ _ | .press page _ =>
      (s.sessions page).map Session.client

/-- The step of an own client, as the client takes it. -/
def ownStep (own : Nat → Bool) (s : System) (event : Event) : Option Event :=
  if (s.actor event).any own then some event.withoutSnapshot else none

/-- The own clients act for the account and for no other, and no other client acts for it. They
open entry pages and profile pages, once the sign-up has taken effect, and do not stop. -/
def ActsApart (own : Nat → Bool) (uid : String) (history : List (System × Event)) (_ : System) :
    Event → Prop
  | .signUp client newUid _ _ _ => own client = true ↔ newUid = uid
  | .viewDidLoad _ client userID screen =>
      (own client = true ↔ userID = uid) ∧
        (userID = uid → (screen = .addEntry ∨ screen = .profile) ∧ SignedUp history uid)
  | .stop client => own client = false
  | _ => True

instance (own : Nat → Bool) (uid : String) (history : List (System × Event)) (s : System) :
    DecidablePred (ActsApart own uid history s)
  | .signUp client newUid _ _ _ => inferInstanceAs (Decidable (own client = true ↔ newUid = uid))
  | .viewDidLoad _ client userID screen =>
      inferInstanceAs (Decidable ((own client = true ↔ userID = uid) ∧
        (userID = uid → (screen = .addEntry ∨ screen = .profile) ∧ SignedUp history uid)))
  | .stop client => inferInstanceAs (Decidable (own client = false))
  | .viewWillAppear _ | .deliver _ _ _ | .press _ _ | .persist _ => .isTrue trivial

/-- What keeps an account apart from the foreign clients. `keys` are the keys that the account has
taken. -/
structure Apart (own : Nat → Bool) (uid : String) (keys : List String) (s : System) : Prop where
  signedIn : ∀ page session, s.sessions page = some session →
    (own session.client = true ↔ session.userID = uid)
  spared : ∀ client, own client = false → ∀ write ∈ s.queue client, write.Spares uid keys
  used : keys ⊆ s.keys
  listed : ∀ itemIds, s.ItemListAt uid itemIds → itemIds ⊆ keys
  ownPages : ∀ page session, s.sessions page = some session → session.userID = uid →
    session.page.ShowsOnly keys

variable {own : Nat → Bool} {uid : String} {keys : List String} {s next : System} {event : Event}
  {history : List (System × Event)}

theorem apart_initial : ({} : System).Apart own uid [] := by
  constructor
  · simp
  · simp
  · simp
  · intro itemIds copied
    exact absurd copied not_itemListAt_initial
  · simp

theorem ownStep_eq_some_iff {action : Event} :
    s.ownStep own event = some action ↔
      (s.actor event).any own = true ∧ event.withoutSnapshot = action := by
  simp [ownStep]

/-- A key that an event takes was not used before. -/
theorem notMem_keys_of_key (stepped : s.step event = some next) {key : String}
    (isKey : event.key = some key) : key ∉ s.keys := by
  cases event with
  | signUp client newUid newItemId userName userEmail =>
      simp only [Event.key, Option.some.injEq] at isKey
      exact isKey ▸ (step_signUp stepped).2.2.1
  | press page button =>
      rcases step_press stepped with ⟨_, _, _, _, _, fresh, _⟩
      exact fresh key isKey
  | _ => simp [Event.key] at isKey

theorem key_ownStep :
    (s.ownStep own event).bind Event.key = if (s.actor event).any own then event.key else none := by
  unfold ownStep
  split_ifs
  · rw [Option.bind_some, Event.key_withoutSnapshot]
  · rfl

/-- The keys of the account are those that own clients take. -/
theorem key_of_ownStep (apart : s.Apart own uid keys) (acts : ActsApart own uid history s event)
    (stepped : s.step event = some next) {key : String} :
    (s.ownStep own event).bind Event.key = some key ↔ s.newKey event = some (uid, key) := by
  rw [key_ownStep]
  cases event with
  | signUp client newUid newItemId userName userEmail =>
      by_cases isOwn : own client = true
      · simp [actor, isOwn, Event.key, newKey, acts.mp isOwn]
      · have different : newUid ≠ uid := fun same => isOwn (acts.mpr same)
        simp [actor, isOwn, newKey, different]
  | press page button =>
      rcases step_press stepped with ⟨session, pressed, writes, isRunning, _, _, _⟩
      have isOpen := (running_eq_some_iff.mp isRunning).1
      have signedIn := apart.signedIn page session isOpen
      cases button with
      | save form newItemId =>
          by_cases isOwn : own session.client = true
          · simp [actor, isOpen, isOwn, Event.key, Button.newKey, newKey, isRunning,
              signedIn.mp isOwn]
          · have different : session.userID ≠ uid := fun same => isOwn (signedIn.mpr same)
            simp [actor, isOpen, isOwn, newKey, isRunning, different]
      | follow => simp [Event.key, Button.newKey, newKey]
  | _ => simp [Event.key, newKey]

theorem client_of_running {page : Nat} {session : Session}
    (isRunning : s.running page = some session) :
    (s.sessions page).map Session.client = some session.client := by
  simp [(running_eq_some_iff.mp isRunning).1]

theorem actor_of_issues {client : Nat} {writes : List Write}
    (issues : s.Issues event client writes) : s.actor event = some client := by
  rcases issues with _ | @⟨page, session, button, after, writes, isRunning, _⟩
  · rfl
  · exact client_of_running isRunning

theorem isSome_ownStep_iff {client : Nat} (acting : s.actor event = some client) :
    (s.ownStep own event).isSome ↔ own client = true := by
  cases isOwn : own client <;> simp [ownStep, acting, isOwn]

theorem isForeign_of_hidden (isHidden : s.ownStep own event = none) {client : Nat}
    (acting : s.actor event = some client) : own client = false := by
  rw [← Bool.not_eq_true, ← isSome_ownStep_iff acting, isHidden]
  simp

/-- Only own clients change the outboxes of own clients. -/
theorem queue_of_hidden (stepped : s.step event = some next)
    (isHidden : s.ownStep own event = none) {client : Nat} (isOwn : own client = true) :
    next.queue client = s.queue client := by
  have different : ∀ other, s.actor event = some other → client ≠ other := by
    rintro other acting rfl
    simp [isForeign_of_hidden isHidden acting] at isOwn
  rcases effect_step stepped with ⟨_, sameQueue⟩ | ⟨issuer, writes, issues, _, extended⟩ |
    ⟨issuer, write, rest, rfl, _, _, shortened⟩ | ⟨issuer, rfl, _, emptied⟩
  · rw [sameQueue]
  · rw [extended, Function.update_of_ne (different issuer (actor_of_issues issues))]
  · rw [shortened, Function.update_of_ne (different issuer rfl)]
  · rw [emptied, Function.update_of_ne (different issuer rfl)]

/-- A key that is taken for somebody else is not a key of the account. -/
theorem notMem_keys_of_foreign (apart : s.Apart own uid keys)
    (acts : ActsApart own uid history s event) (stepped : s.step event = some next)
    {owner key : String} (taken : s.newKey event = some (owner, key)) (different : owner ≠ uid) :
    key ∉ keys ∧ (s.ownStep own event).bind Event.key ≠ some key := by
  constructor
  · intro old
    exact (keys_step stepped).2 owner key taken (apart.used old)
  · intro isOwn
    rw [key_of_ownStep apart acts stepped, taken] at isOwn
    simp only [Option.some.injEq, Prod.mk.injEq, and_true] at isOwn
    exact different isOwn

theorem spares_issued (apart : s.Apart own uid keys) (acts : ActsApart own uid history s event)
    (stepped : s.step event = some next) {client : Nat} {writes : List Write}
    (issues : s.Issues event client writes) (isForeign : own client = false) :
    ∀ write ∈ writes,
      write.Spares uid (keys ++ ((s.ownStep own event).bind Event.key).toList) := by
  rcases issues with @⟨_, newUid, newItemId, userName, userEmail, _, _⟩ |
    @⟨page, session, button, after, writes, isRunning, hasButton⟩
  · have different : newUid ≠ uid := by
      intro same
      simp [acts.mpr same] at isForeign
    have taken : s.newKey (.signUp client newUid newItemId userName userEmail) =
        some (newUid, newItemId) := rfl
    have isForeignKey := notMem_keys_of_foreign apart acts stepped taken different
    simp [signUpWrites, Write.Spares, different, isForeignKey]
  · have different : session.userID ≠ uid := by
      intro same
      have isOwn := (apart.signedIn page session (running_eq_some_iff.mp isRunning).1).mpr same
      simp [isOwn] at isForeign
    cases button with
    | save form newItemId =>
        have taken : s.newKey (.press page (.save form newItemId)) =
            some (session.userID, newItemId) := by
          simp [newKey, isRunning]
        rcases (Page.press_save hasButton).2.2 with ⟨itemAttr, _, rfl⟩
        have isForeignKey := notMem_keys_of_foreign apart acts stepped taken different
        simp [Write.Spares, different, isForeignKey]
    | follow =>
        rcases (Page.press_follow hasButton).2.2 with ⟨_, _, rfl⟩ | ⟨_, _, rfl⟩
        · simp
        · simp [Write.Spares]

/-- A write that waited stays harmless: the items it stores have keys that were used before. -/
theorem spares_waiting (fresh : s.NewItemsFresh) (apart : s.Apart own uid keys)
    (acts : ActsApart own uid history s event) (stepped : s.step event = some next) {client : Nat}
    (isForeign : own client = false) {write : Write} (waiting : write ∈ s.queue client) :
    write.Spares uid (keys ++ ((s.ownStep own event).bind Event.key).toList) := by
  have spares := apart.spared client isForeign write waiting
  cases write with
  | setItem newItemId itemAttr =>
      have isUsed : newItemId ∈ s.keys :=
        fresh.waiting client (List.mem_filterMap.mpr ⟨_, waiting, rfl⟩)
      show newItemId ∉ _
      rw [List.mem_append, Option.mem_toList]
      rintro (old | isNew)
      · exact spares old
      · rw [key_of_ownStep apart acts stepped] at isNew
        exact (keys_step stepped).2 uid newItemId isNew isUsed
  | _ => exact spares

theorem apart_step (wellFormed : s.QueuesWellFormed) (fresh : s.NewItemsFresh)
    (apart : s.Apart own uid keys) (acts : ActsApart own uid history s event)
    (stepped : s.step event = some next) :
    next.Apart own uid (keys ++ ((s.ownStep own event).bind Event.key).toList) := by
  constructor
  · intro page session isOpen
    rcases (sessionOrigin_step stepped isOpen).signedIn with
      ⟨before, wasOpen, sameUser, sameClient⟩ | ⟨screen, rfl, _⟩
    · rw [sameUser, sameClient]
      exact apart.signedIn page before wasOpen
    · exact acts.1
  · intro client isForeign write waiting
    rcases issues_of_mem_queue stepped waiting with old | ⟨writes, issues, issued⟩
    · exact spares_waiting fresh apart acts stepped isForeign old
    · exact spares_issued apart acts stepped issues isForeign write issued
  · intro key key_mem
    rcases List.mem_append.mp key_mem with old | isNew
    · exact keys_subset_step stepped (apart.used old)
    · rw [Option.mem_toList, key_of_ownStep apart acts stepped] at isNew
      exact newKey_mem_step stepped isNew
  · intro itemIds copied
    rcases itemListAt_step wellFormed stepped copied with
      old | rfl | ⟨before, key, isNew, rfl, isOld⟩
    · exact List.subset_append_of_subset_left _ (apart.listed itemIds old)
    · exact List.nil_subset _
    · have isOwnKey : key ∈ ((s.ownStep own event).bind Event.key).toList := by
        rw [Option.mem_toList, key_of_ownStep apart acts stepped]
        exact isNew
      have beforeListed : before ⊆ keys := by
        rcases isOld with rfl | old
        · exact List.nil_subset _
        · exact apart.listed before old
      exact List.append_subset.mpr ⟨List.subset_append_of_subset_left _ beforeListed,
        by simp [Option.mem_toList.mp isOwnKey]⟩
  · intro page session isOpen sameUser
    have grows : keys ⊆ keys ++ ((s.ownStep own event).bind Event.key).toList :=
      List.subset_append_left _ _
    rcases sessionOrigin_step stepped isOpen with
      ⟨before, wasOpen, keepsUser, _, samePage, _⟩ | ⟨client, userID, screen, rfl, _, rfl⟩ |
      ⟨before, callback, snapshot, _, isRunning, taken, keepsUser, _, ran⟩ |
      ⟨before, button, writes, _, isRunning, keepsUser, _, hasButton⟩
    · rw [samePage]
      exact (apart.ownPages page before wasOpen (keepsUser ▸ sameUser)).mono grows
    · exact Screen.showsOnly_viewDidLoad (acts.2 sameUser).1 _
    · have shows := apart.ownPages page before (running_eq_some_iff.mp isRunning).1
        (keepsUser ▸ sameUser)
      refine (shows.callback ?_ taken ran).mono grows
      intro itemIds stored
      rw [← keepsUser, sameUser] at stored
      exact apart.listed itemIds (.stored stored)
    · have shows := apart.ownPages page before (running_eq_some_iff.mp isRunning).1
        (keepsUser ▸ sameUser)
      exact (shows.press hasButton).mono grows

/-! ## The sign-up of the account -/

/-- The sign-up has not started, or some of its writes still wait. -/
structure SignUpWaits (own : Nat → Bool) (uid : String) (history : List (System × Event))
    (s : System) : Prop where
  unopened : ∀ page session, s.sessions page = some session → session.userID ≠ uid
  untaken : ∀ itemList, .setItemList uid itemList ∉ writesTaken history
  waiting : (uid ∉ s.accounts ∧ ∀ client, own client = true → s.queue client = []) ∨
    (uid ∈ s.accounts ∧ ∃ issuer newItemId userName userEmail, own issuer = true ∧
      s.queue issuer ≠ [] ∧ s.queue issuer <:+ signUpWrites uid newItemId userName userEmail ∧
      ∀ client, own client = true → client ≠ issuer → s.queue client = [])

/-- The account has an item list, and no waiting write would remove it. -/
structure WishlistStored (uid : String) (s : System) : Prop where
  account : uid ∈ s.accounts
  stored : ∃ itemIds, itemListOf s.db uid = some itemIds ∧ itemIds ≠ []
  waiting : ∀ client, ∀ write ∈ s.queue client, write.profileWritten ≠ some uid

theorem signUpWaits_initial : ({} : System).SignUpWaits own uid [] := by
  constructor <;> simp [writesTaken]

/-- A write that is no profile leaves the account with an item list. -/
theorem exists_itemListOf_apply {db : Database} {write : Write} (wellFormed : write.WellFormed)
    (noProfile : write.profileWritten ≠ some uid)
    (stored : ∃ itemIds, itemListOf db uid = some itemIds ∧ itemIds ≠ []) :
    ∃ itemIds, itemListOf (write.apply db) uid = some itemIds ∧ itemIds ≠ [] := by
  rw [itemListOf_apply]
  cases write with
  | setUser owner newUserData =>
      have different : uid ≠ owner := fun same => noProfile (by rw [same]; rfl)
      simpa [different] using stored
  | setItemList owner itemIds | updateItemList owner itemIds =>
      by_cases same : uid = owner
      · exact ⟨itemIds, if_pos same, wellFormed⟩
      · simpa [same] using stored
  | _ => exact stored

theorem wishlistStored_step (wellFormed : s.QueuesWellFormed) (wishlist : s.WishlistStored uid)
    (stepped : s.step event = some next) : next.WishlistStored uid := by
  constructor
  · exact accounts_subset_step stepped wishlist.account
  · rcases db_step stepped with same | ⟨client, write, rest, _, queued, applied⟩
    · rw [same]
      exact wishlist.stored
    · have waiting : write ∈ s.queue client := by simp [queued]
      rw [applied]
      exact exists_itemListOf_apply (wellFormed client write waiting)
        (wishlist.waiting client write waiting) wishlist.stored
  · intro client write waiting isProfile
    rcases issues_of_mem_queue stepped waiting with old | ⟨writes, issues, issued⟩
    · exact wishlist.waiting client write old isProfile
    · -- only a sign-up issues a profile, and the account has signed up already
      have created : uid ∈ Outbox.created Write.profileWritten writes :=
        List.mem_filterMap.mpr ⟨write, issued, isProfile⟩
      rw [created_issued issues, Option.mem_toList] at created
      exact (newAccount_step stepped created).1 wishlist.account

/-- A suffix of the sign-up writes that is not empty ends with the item list. -/
theorem of_suffix_signUpWrites {newItemId userName userEmail : String} {write : Write}
    {rest : List Write}
    (remaining : write :: rest <:+ signUpWrites uid newItemId userName userEmail) :
    (rest ≠ [] ∧ ∀ itemIds, write ≠ .setItemList uid itemIds) ∨
      (rest = [] ∧ write = .setItemList uid [newItemId]) := by
  simp only [signUpWrites, List.suffix_cons_iff, List.cons.injEq, List.suffix_nil,
    List.cons_ne_nil, or_false] at remaining
  rcases remaining with ⟨rfl, rfl⟩ | ⟨rfl, rfl⟩ | ⟨rfl, rfl⟩ | ⟨rfl, rfl⟩ <;> simp

theorem SignUpWaits.not_signedUp (waits : s.SignUpWaits own uid history) :
    ¬ SignedUp history uid := by
  rintro ⟨⟨before, event⟩, _, isSignUp⟩
  cases event with
  | signUp client newUid newItemId userName userEmail =>
      rcases isSignUp with ⟨rfl, taken⟩
      exact waits.untaken [newItemId] (taken (by simp [signUpWrites]))
  | _ => exact isSignUp

theorem SignUpWaits.unopened_step (waits : s.SignUpWaits own uid history)
    (acts : ActsApart own uid history s event) (stepped : s.step event = some next) (page : Nat)
    (session : Session) (isOpen : next.sessions page = some session) : session.userID ≠ uid := by
  intro sameUser
  rcases (sessionOrigin_step stepped isOpen).signedIn with
    ⟨before, wasOpen, keepsUser, _⟩ | ⟨screen, rfl, _⟩
  · exact waits.unopened page before wasOpen (keepsUser ▸ sameUser)
  · exact waits.not_signedUp (acts.2 sameUser).2

/-- A foreign sign-up is one of another account. -/
theorem mem_accounts_of_hidden (acts : ActsApart own uid history s event)
    (stepped : s.step event = some next) (isHidden : s.ownStep own event = none) :
    uid ∈ next.accounts ↔ uid ∈ s.accounts := by
  cases event with
  | signUp client newUid newItemId userName userEmail =>
      have different : uid ≠ newUid := by
        intro same
        have isForeign : own client = false := isForeign_of_hidden isHidden rfl
        simp [acts.mpr same.symm] at isForeign
      rcases step_signUp stepped with ⟨_, _, _, rfl⟩
      simp [issue, different]
  | _ => rw [accounts_step stepped rfl]

/-- A foreign step leaves the sign-up waiting. -/
theorem SignUpWaits.kept (apart : s.Apart own uid keys) (waits : s.SignUpWaits own uid history)
    (acts : ActsApart own uid history s event) (stepped : s.step event = some next)
    (isHidden : s.ownStep own event = none) :
    next.SignUpWaits own uid (history ++ [(s, event)]) := by
  constructor
  · exact waits.unopened_step acts stepped
  · intro itemList taken
    rcases mem_writesTaken_concat taken with old | ⟨client, rest, rfl, queued⟩
    · exact waits.untaken itemList old
    · have spares : Write.Spares uid keys (.setItemList uid itemList) :=
        apart.spared client (isForeign_of_hidden isHidden rfl) _ (by simp [queued])
      exact spares rfl
  · rw [mem_accounts_of_hidden acts stepped isHidden]
    refine waits.waiting.imp (fun before => ⟨before.1, ?_⟩) ?_
    · intro client isOwn
      rw [queue_of_hidden stepped isHidden isOwn]
      exact before.2 client isOwn
    · rintro ⟨account, issuer, newItemId, userName, userEmail, isOwn, nonempty, remaining, others⟩
      refine ⟨account, issuer, newItemId, userName, userEmail, isOwn, ?_, ?_, ?_⟩
      · rw [queue_of_hidden stepped isHidden isOwn]
        exact nonempty
      · rw [queue_of_hidden stepped isHidden isOwn]
        exact remaining
      · intro client clientOwn different
        rw [queue_of_hidden stepped isHidden clientOwn]
        exact others client clientOwn different

theorem SignUpWaits.signUp (waits : s.SignUpWaits own uid history) {client : Nat}
    {newItemId userName userEmail : String} (isOwn : own client = true)
    (acts : ActsApart own uid history s (.signUp client uid newItemId userName userEmail))
    (stepped : s.step (.signUp client uid newItemId userName userEmail) = some next) :
    next.SignUpWaits own uid
      (history ++ [(s, .signUp client uid newItemId userName userEmail)]) := by
  have unopened := waits.unopened_step acts stepped
  rcases step_signUp stepped with ⟨newAccount, _, _, rfl⟩
  have before := waits.waiting.resolve_right fun started => newAccount started.1
  refine ⟨unopened, ?_, Or.inr ⟨List.mem_cons_self, client, newItemId, userName, userEmail, isOwn,
    ?_, ?_, ?_⟩⟩
  · intro itemList taken
    rcases mem_writesTaken_concat taken with old | ⟨_, _, isPersist, _⟩
    · exact waits.untaken itemList old
    · exact Event.noConfusion isPersist
  · simp [queue_issue, signUpWrites]
  · simp [queue_issue, before.2 client isOwn]
  · intro other otherOwn different
    simp [queue_issue, different, before.2 other otherOwn]

/-- The last write of the sign-up stores the item list. -/
theorem SignUpWaits.persist (apart : s.Apart own uid keys) (waits : s.SignUpWaits own uid history)
    {client : Nat} (isOwn : own client = true)
    (acts : ActsApart own uid history s (.persist client))
    (stepped : s.step (.persist client) = some next) :
    next.SignUpWaits own uid (history ++ [(s, .persist client)]) ∨ next.WishlistStored uid := by
  have unopened := waits.unopened_step acts stepped
  rcases step_persist stepped with ⟨write, rest, queued, rfl⟩
  rcases waits.waiting with ⟨_, empty⟩ |
    ⟨account, issuer, newItemId, userName, userEmail, _, _, remaining, others⟩
  · simp [empty client isOwn] at queued
  have isIssuer : client = issuer := by
    by_contra different
    simp [others client isOwn different] at queued
  subst isIssuer
  rw [queued] at remaining
  rcases of_suffix_signUpWrites remaining with ⟨nonempty, notLast⟩ | ⟨rfl, rfl⟩
  · refine Or.inl ⟨unopened, ?_, Or.inr ⟨account, client, newItemId, userName, userEmail, isOwn,
      ?_, ?_, ?_⟩⟩
    · intro itemList taken
      rcases mem_writesTaken_concat taken with old | ⟨taker, later, isPersist, waiting⟩
      · exact waits.untaken itemList old
      · simp only [Event.persist.injEq] at isPersist
        rw [← isPersist, queued, List.cons.injEq] at waiting
        exact notLast itemList waiting.1
    · simpa using nonempty
    · simpa using (List.suffix_cons write rest).trans remaining
    · intro other otherOwn different
      simp [Function.update_of_ne different, others other otherOwn different]
  · refine Or.inr ⟨account, ⟨[newItemId], by simp [itemListOf_apply], by simp⟩, ?_⟩
    intro other write waiting isProfile
    by_cases same : other = client
    · simp [same] at waiting
    · simp only [Function.update_of_ne same] at waiting
      cases otherOwn : own other with
      | true => simp [others other otherOwn same] at waiting
      | false =>
          have spares := apart.spared other otherOwn write waiting
          cases write <;> simp [Write.profileWritten] at isProfile
          exact spares isProfile

theorem SignUpWaits.not_own_of_opened (waits : s.SignUpWaits own uid history)
    (apart : s.Apart own uid keys) {page : Nat} {session : Session}
    (isRunning : s.running page = some session) : ¬ own session.client = true := by
  have isOpen := (running_eq_some_iff.mp isRunning).1
  exact mt (apart.signedIn page session isOpen).mp (waits.unopened page session isOpen)

/-- While the sign-up waits, the own clients only sign up and let writes take effect. -/
theorem SignUpWaits.ownStep_cases (apart : s.Apart own uid keys)
    (waits : s.SignUpWaits own uid history) (acts : ActsApart own uid history s event)
    (stepped : s.step event = some next) :
    s.ownStep own event = none ∨
      (∃ client newItemId userName userEmail,
        event = .signUp client uid newItemId userName userEmail ∧ own client = true) ∨
      ∃ client, event = .persist client ∧ own client = true := by
  by_cases isHidden : s.ownStep own event = none
  · exact Or.inl isHidden
  have isOwn : ∀ client, s.actor event = some client → own client = true := fun client acting =>
    (isSome_ownStep_iff acting).mp (Option.isSome_iff_ne_none.mpr isHidden)
  right
  cases event with
  | signUp client newUid newItemId userName userEmail =>
      have sameUid : newUid = uid := acts.mp (isOwn client rfl)
      exact Or.inl ⟨client, newItemId, userName, userEmail, sameUid ▸ rfl, isOwn client rfl⟩
  | viewDidLoad page client userID screen =>
      exact absurd (acts.2 (acts.1.mp (isOwn client rfl))).2 waits.not_signedUp
  | viewWillAppear page =>
      rcases step_viewWillAppear stepped with ⟨session, isRunning, _⟩
      exact absurd (isOwn session.client (client_of_running isRunning))
        (waits.not_own_of_opened apart isRunning)
  | deliver page callback snapshot =>
      rcases step_deliver stepped with ⟨session, isRunning, _, _, _⟩
      exact absurd (isOwn session.client (client_of_running isRunning))
        (waits.not_own_of_opened apart isRunning)
  | press page button =>
      rcases step_press stepped with ⟨session, pressed, writes, isRunning, _, _, _⟩
      exact absurd (isOwn session.client (client_of_running isRunning))
        (waits.not_own_of_opened apart isRunning)
  | persist client =>
      exact Or.inr ⟨client, rfl, isOwn client rfl⟩
  | stop client =>
      have isForeign : own client = false := acts
      simp [isOwn client rfl] at isForeign

theorem signUp_step (wellFormed : s.QueuesWellFormed) (apart : s.Apart own uid keys)
    (acts : ActsApart own uid history s event) (stepped : s.step event = some next)
    (phase : s.SignUpWaits own uid history ∨ s.WishlistStored uid) :
    next.SignUpWaits own uid (history ++ [(s, event)]) ∨ next.WishlistStored uid := by
  rcases phase with waits | wishlist
  · rcases waits.ownStep_cases apart acts stepped with
      isHidden | ⟨client, newItemId, userName, userEmail, rfl, isOwn⟩ | ⟨client, rfl, isOwn⟩
    · exact Or.inl (waits.kept apart acts stepped isHidden)
    · exact Or.inl (waits.signUp isOwn acts stepped)
    · exact waits.persist apart isOwn acts stepped
  · exact Or.inr (wishlistStored_step wellFormed wishlist stepped)

/-! ## Runs -/

/-- The keys that the own clients have taken. -/
def ownKeys (actions : List Event) : List String :=
  actions.filterMap Event.key

theorem ownKeys_append_toList (actions : List Event) (action : Option Event) :
    ownKeys (actions ++ action.toList) = ownKeys actions ++ (action.bind Event.key).toList := by
  rw [ownKeys, List.filterMap_append, ownKeys]
  cases action with
  | none => rfl
  | some event => cases isKey : event.key <;> simp [isKey]

theorem ownKeys_concat (actions : List Event) (event : Event) :
    ownKeys (actions ++ [event.withoutSnapshot]) = ownKeys actions ++ event.key.toList := by
  rw [← Option.toList_some, ownKeys_append_toList, Option.bind_some, Event.key_withoutSnapshot]

theorem apart_run {events : List Event} (reached : Machine.run step {} events = some s)
    (every : Machine.EachStep step (ActsApart own uid) {} events) :
    s.Apart own uid (ownKeys (Machine.observed step (ownStep own) {} events)) := by
  refine Machine.invariant_of_eachStep (fun history s => s.Apart own uid
    (ownKeys (history.filterMap fun taken => ownStep own taken.1 taken.2))) apart_initial ?_
    reached every
  intro events state event next toState apart acts stepped
  have taken := apart_step (queuesWellFormed_run toState) (newItemsFresh_run toState) apart acts
    stepped
  rw [← ownKeys_append_toList] at taken
  rw [List.filterMap_append]
  cases isOwn : state.ownStep own event with
  | none => simpa [isOwn] using taken
  | some action => simpa [isOwn] using taken

theorem signUp_run {events : List Event} (reached : Machine.run step {} events = some s)
    (every : Machine.EachStep step (ActsApart own uid) {} events) :
    s.SignUpWaits own uid (Machine.trace step {} events) ∨ s.WishlistStored uid := by
  refine Machine.run_induction (motive := fun events s =>
    Machine.EachStep step (ActsApart own uid) {} events →
      s.SignUpWaits own uid (Machine.trace step {} events) ∨ s.WishlistStored uid)
    (fun _ => Or.inl signUpWaits_initial) ?_ reached every
  intro events state event next toState phase stepped extended
  rcases (Machine.eachStep_concat toState event).mp extended with ⟨before, acts⟩
  rw [Machine.trace_concat toState]
  exact signUp_step (queuesWellFormed_run toState) (apart_run toState before) acts stepped
    (phase before)

/-- An account with an open page has its item list stored. -/
theorem wishlistStored_of_opened {events : List Event}
    (reached : Machine.run step {} events = some s)
    (every : Machine.EachStep step (ActsApart own uid) {} events) {page : Nat} {session : Session}
    (isOpen : s.sessions page = some session) (sameUser : session.userID = uid) :
    s.WishlistStored uid :=
  (signUp_run reached every).resolve_left fun waits => waits.unopened page session isOpen sameUser

end System

end PriceTracker
