import PriceTracker.ItemStore

/-!
# Who writes what

The database has no access rules in the code: a controller writes under the id of the account that
its page is opened for, and items under keys that nobody has used. So the record of a user changes
only by writes of clients that act for this user, and an item that is listed for a user is an item
that this user has saved, with the texts of the form, or the sample of the sign-up.
-/

namespace PriceTracker

/-- The user whose record a write changes. -/
def Write.owner : Write → Option String
  | .setItem _ _ => none
  | .setUser uid _ | .setFriendList uid _ | .setItemList uid _ | .updateFriendList uid _
  | .updateItemList uid _ => some uid

theorem owner_of_changed {db : Database} {write : Write} {uid : String}
    (changed : userRecord (write.apply db) uid ≠ userRecord db uid) : write.owner = some uid := by
  rw [userRecord_apply] at changed
  cases write with
  | setItem newItemId itemAttr => exact absurd rfl changed
  | setUser owner newUserData | setFriendList owner list | setItemList owner list
  | updateFriendList owner list | updateItemList owner list =>
      simp only [ne_eq, ite_eq_right_iff, not_forall] at changed
      rcases changed with ⟨same, _⟩
      simp [Write.owner, same]

/-- The account has signed up on the client, or the client has opened a page for it. -/
def UsedOn (events : List Event) (client : Nat) (uid : String) : Prop :=
  (∃ newItemId userName userEmail, .signUp client uid newItemId userName userEmail ∈ events) ∨
    ∃ page screen, .viewDidLoad page client uid screen ∈ events

theorem UsedOn.concat {events : List Event} {client : Nat} {uid : String}
    (used : UsedOn events client uid) (event : Event) : UsedOn (events ++ [event]) client uid := by
  rcases used with ⟨newItemId, userName, userEmail, signedUp⟩ | ⟨page, screen, opened⟩
  · exact Or.inl ⟨newItemId, userName, userEmail, List.mem_append_left _ signedUp⟩
  · exact Or.inr ⟨page, screen, List.mem_append_left _ opened⟩

/-- The items of a new account and of a form. -/
def sampleItem : Record :=
  itemAttributes "My Cool Shoes" "None" "M" "blizzard blue"

def EntryForm.item (form : EntryForm) : Record :=
  itemAttributes form.itemNameTextField form.linkTextField form.sizeTextField form.colorTextField

theorem owner_signUpWrites {uid newItemId userName userEmail owner : String} {write : Write}
    (issued : write ∈ signUpWrites uid newItemId userName userEmail)
    (owned : write.owner = some owner) : owner = uid := by
  simp only [signUpWrites, List.mem_cons, List.not_mem_nil, or_false] at issued
  rcases issued with rfl | rfl | rfl | rfl <;>
    simp only [Write.owner, reduceCtorEq, Option.some.injEq] at owned
  all_goals exact owned.symm

theorem Page.owner_press {page pressed : Page} {userID : String} {button : Button}
    {writes : List Write} (hasButton : page.press userID button = some (pressed, writes))
    {write : Write} (issued : write ∈ writes) {uid : String} (owned : write.owner = some uid) :
    uid = userID := by
  cases Page.press_effect hasButton with
  | save =>
      simp only [AddEntryVC.writes_save, List.mem_cons, List.not_mem_nil, or_false] at issued
      rcases issued with rfl | rfl
      · simp [Write.owner] at owned
      · simpa [Write.owner] using owned.symm
  | userCopyListed | userListed => simp at issued
  | userCopyAdded | userAdded =>
      simp only [List.mem_singleton] at issued
      subst issued
      simpa [Write.owner] using owned.symm

namespace System

variable {s next : System} {event : Event}

/-! ## Writes that wait -/

/-- Waiting writes and open pages belong to accounts that their client has used. -/
structure ClientsAct (events : List Event) (s : System) : Prop where
  queued : ∀ client, ∀ write ∈ s.queue client, ∀ uid, write.owner = some uid →
    UsedOn events client uid
  onPage : ∀ page session, s.sessions page = some session →
    UsedOn events session.client session.userID

theorem owner_issued {events : List Event} (acts : s.ClientsAct events) {client : Nat}
    {writes : List Write} (issues : s.Issues event client writes) {write : Write}
    (issued : write ∈ writes) {uid : String} (owned : write.owner = some uid) :
    UsedOn (events ++ [event]) client uid := by
  rcases issues with @⟨_, newUid, newItemId, userName, userEmail, _, _⟩ |
    @⟨page, session, button, after, writes, isRunning, hasButton⟩
  · rw [owner_signUpWrites issued owned]
    exact Or.inl ⟨newItemId, userName, userEmail, by simp⟩
  · rw [Page.owner_press hasButton issued owned]
    exact (acts.onPage page session (running_eq_some_iff.mp isRunning).1).concat _

theorem clientsAct_step {events : List Event} (acts : s.ClientsAct events)
    (stepped : s.step event = some next) : next.ClientsAct (events ++ [event]) where
  queued := by
    intro client write waiting uid owned
    rcases issues_of_mem_queue stepped waiting with old | ⟨writes, issues, issued⟩
    · exact (acts.queued client write old uid owned).concat event
    · exact owner_issued acts issues issued owned
  onPage := by
    intro page session isOpen
    rcases (sessionOrigin_step stepped isOpen).signedIn with
      ⟨before, wasOpen, sameUser, sameClient⟩ | ⟨screen, isEvent, _⟩
    · rw [sameUser, sameClient]
      exact (acts.onPage page before wasOpen).concat event
    · exact Or.inr ⟨page, screen, by simp [isEvent]⟩

theorem clientsAct_run {events : List Event} (reached : Machine.run step {} events = some s) :
    s.ClientsAct events :=
  Machine.run_induction (motive := fun events s => s.ClientsAct events)
    ⟨by simp, by simp⟩ (fun _ _ _ _ _ acts stepped => clientsAct_step acts stepped) reached

/-- In every run, a step changes the record of a user only by the oldest write of a client on which
this user has signed up or has opened a page. -/
theorem used_of_userRecord_changed {events : List Event}
    (reached : Machine.run step {} events = some s) (stepped : s.step event = some next)
    {uid : String} (changed : userRecord next.db uid ≠ userRecord s.db uid) :
    ∃ client write rest, event = .persist client ∧ s.queue client = write :: rest ∧
      write.owner = some uid ∧ UsedOn events client uid := by
  rcases db_step stepped with same | ⟨client, write, rest, isEvent, queued, applied⟩
  · rw [same] at changed
    exact absurd rfl changed
  · rw [applied] at changed
    have owned := owner_of_changed changed
    exact ⟨client, write, rest, isEvent, queued, owned,
      (clientsAct_run reached).queued client write (by simp [queued]) uid owned⟩

/-- The last write of `saveAndFollow` replaces the friend list of `ann`. -/
theorem used_saveAndFollow :
    let s := (Machine.run step {} saveAndFollow.dropLast).get (by decide)
    ∃ client write rest, Event.persist 0 = .persist client ∧ s.queue client = write :: rest ∧
      write.owner = some "ann" ∧ UsedOn saveAndFollow.dropLast client "ann" := by
  intro s
  have stepped : s.step (.persist 0) = some ((s.step (.persist 0)).get (by decide)) :=
    (Option.some_get _).symm
  exact used_of_userRecord_changed (Option.some_get _).symm stepped (by decide)

/-! ## Authors of items -/

/-- The item that an event issues, with its account and its key. -/
def newItem (s : System) : Event → Option (String × String × Record)
  | .signUp _ uid newItemId _ _ => some (uid, newItemId, sampleItem)
  | .press page (.save form newItemId) =>
      (s.running page).map fun session => (session.userID, newItemId, form.item)
  | _ => none

/-- The account has issued the item under the key. -/
def Authored (history : List (System × Event)) (uid key : String) (item : Record) : Prop :=
  ∃ taken ∈ history, taken.1.newItem taken.2 = some (uid, key, item)

theorem newKey_eq_map_newItem (s : System) (event : Event) :
    s.newKey event = (s.newItem event).map fun made => (made.1, made.2.1) := by
  cases event with
  | press page button =>
      cases button with
      | save form newItemId => simp [newKey, newItem, Function.comp_def]
      | follow => rfl
  | _ => rfl

theorem newItem_of_newKey {uid key : String} (taken : s.newKey event = some (uid, key)) :
    ∃ item, s.newItem event = some (uid, key, item) := by
  rw [newKey_eq_map_newItem] at taken
  rcases Option.map_eq_some_iff.mp taken with ⟨⟨owner, made, item⟩, isNew, same⟩
  simp only [Prod.mk.injEq] at same
  rcases same with ⟨rfl, rfl⟩
  exact ⟨item, isNew⟩

theorem newKey_of_newItem {uid key : String} {item : Record}
    (made : s.newItem event = some (uid, key, item)) : s.newKey event = some (uid, key) := by
  rw [newKey_eq_map_newItem, made, Option.map_some]

theorem newItem_of_issued {client : Nat} {writes : List Write}
    (issues : s.Issues event client writes) {key : String} {item : Record}
    (issued : .setItem key item ∈ writes) : ∃ uid, s.newItem event = some (uid, key, item) := by
  rcases issues with @⟨_, uid, newItemId, userName, userEmail, _, _⟩ |
    @⟨page, session, button, after, writes, isRunning, hasButton⟩
  · simp only [signUpWrites, List.mem_cons, Write.setItem.injEq, reduceCtorEq, List.not_mem_nil,
      or_false] at issued
    rcases issued with ⟨rfl, rfl⟩
    exact ⟨uid, rfl⟩
  · cases button with
    | save form newItemId =>
        have written : .setItem key item ∈ [Write.setItem newItemId form.item,
            .updateItemList session.userID (session.page.itemIds ++ [newItemId])] := by
          generalize session.page = page at hasButton ⊢
          cases Page.press_effect hasButton with
          | save => exact issued
        simp only [List.mem_cons, Write.setItem.injEq, reduceCtorEq, List.not_mem_nil,
          or_false] at written
        rcases written with ⟨rfl, rfl⟩
        exact ⟨session.userID, by simp [newItem, isRunning]⟩
    | follow =>
        rcases (Page.press_follow hasButton).2.2 with ⟨_, _, rfl⟩ | ⟨_, _, rfl⟩ <;> simp at issued

section Authored

variable {history : List (System × Event)} {uid key : String} {item : Record}

theorem Authored.concat (authored : Authored history uid key item) (taken : System × Event) :
    Authored (history ++ [taken]) uid key item := by
  rcases authored with ⟨earlier, earlier_mem, made⟩
  exact ⟨earlier, List.mem_append_left _ earlier_mem, made⟩

theorem authored_concat :
    Authored (history ++ [(s, event)]) uid key item ↔
      Authored history uid key item ∨ s.newItem event = some (uid, key, item) := by
  simp [Authored, or_and_right, exists_or]

end Authored

/-- Items are stored, wait and are listed as their accounts have issued them, and each key is
issued once. -/
structure ItemsAuthored (history : List (System × Event)) (s : System) : Prop where
  stored : ∀ key item, itemRecord s.db key = some item → ∃ uid, Authored history uid key item
  queued : ∀ client key item, .setItem key item ∈ s.queue client →
    ∃ uid, Authored history uid key item
  listed : ∀ uid itemIds, s.ItemListAt uid itemIds → ∀ key ∈ itemIds,
    ∃ item, Authored history uid key item
  used : ∀ uid key item, Authored history uid key item → key ∈ s.keys
  unique : ∀ uid other key item otherItem, Authored history uid key item →
    Authored history other key otherItem → uid = other ∧ item = otherItem

theorem itemsAuthored_initial : ({} : System).ItemsAuthored [] where
  stored := by simp [itemRecord]
  queued := by simp
  listed := fun _ _ copied => absurd copied not_itemListAt_initial
  used := by simp [Authored]
  unique := by simp [Authored]

theorem authored_listed_step {history : List (System × Event)} (wellFormed : s.QueuesWellFormed)
    (items : s.ItemsAuthored history) (stepped : s.step event = some next) {uid : String}
    {itemIds : List String} (copied : next.ItemListAt uid itemIds) :
    ∀ key ∈ itemIds, ∃ item, Authored (history ++ [(s, event)]) uid key item := by
  have isAuthored : ∀ {before : List String}, s.ItemListAt uid before → ∀ key ∈ before,
      ∃ item, Authored (history ++ [(s, event)]) uid key item := by
    intro before old key key_mem
    rcases items.listed uid before old key key_mem with ⟨item, authored⟩
    exact ⟨item, authored.concat _⟩
  have isNewItem : ∀ {key : String}, s.newKey event = some (uid, key) →
      ∃ item, Authored (history ++ [(s, event)]) uid key item := by
    intro key taken
    rcases newItem_of_newKey taken with ⟨item, made⟩
    exact ⟨item, authored_concat.mpr (Or.inr made)⟩
  intro key key_mem
  rcases itemListAt_step wellFormed stepped copied with
    old | rfl | ⟨before, newKey, isNew, rfl, rfl | old⟩
  · exact isAuthored old key key_mem
  · simp at key_mem
  · simp only [List.nil_append, List.mem_singleton] at key_mem
    exact isNewItem (key_mem ▸ isNew)
  · rcases List.mem_append.mp key_mem with before_mem | isKey
    · exact isAuthored old key before_mem
    · exact isNewItem (List.mem_singleton.mp isKey ▸ isNew)

theorem itemsAuthored_step {history : List (System × Event)} (wellFormed : s.QueuesWellFormed)
    (items : s.ItemsAuthored history) (stepped : s.step event = some next) :
    next.ItemsAuthored (history ++ [(s, event)]) where
  stored := by
    intro key item stored
    rcases db_step stepped with same | ⟨client, write, rest, _, queued, applied⟩
    · rw [same] at stored
      exact (items.stored key item stored).imp fun _ authored => authored.concat _
    · rw [applied, itemRecord_apply] at stored
      cases write with
      | setItem newItemId itemAttr =>
          simp only at stored
          split_ifs at stored with same
          · simp only [Option.some.injEq] at stored
            subst same stored
            exact (items.queued client key itemAttr (by simp [queued])).imp
              fun _ authored => authored.concat _
          · exact (items.stored key item stored).imp fun _ authored => authored.concat _
      | _ => exact (items.stored key item stored).imp fun _ authored => authored.concat _
  queued := by
    intro client key item waiting
    rcases issues_of_mem_queue stepped waiting with old | ⟨writes, issues, issued⟩
    · exact (items.queued client key item old).imp fun _ authored => authored.concat _
    · exact (newItem_of_issued issues issued).imp fun _ made => authored_concat.mpr (Or.inr made)
  listed := fun _ _ copied => authored_listed_step wellFormed items stepped copied
  used := by
    intro uid key item authored
    rcases authored_concat.mp authored with old | made
    · exact keys_subset_step stepped (items.used uid key item old)
    · exact newKey_mem_step stepped (newKey_of_newItem made)
  unique := by
    have isFresh : ∀ {uid other key item otherItem}, Authored history uid key item →
        s.newItem event ≠ some (other, key, otherItem) := by
      intro uid other key item otherItem old made
      exact (keys_step stepped).2 other key (newKey_of_newItem made) (items.used uid key item old)
    intro uid other key item otherItem authored again
    rcases authored_concat.mp authored with old | made
    · rcases authored_concat.mp again with otherOld | otherMade
      · exact items.unique uid other key item otherItem old otherOld
      · exact absurd otherMade (isFresh old)
    · rcases authored_concat.mp again with otherOld | otherMade
      · exact absurd made (isFresh otherOld)
      · rw [made, Option.some.injEq] at otherMade
        simp only [Prod.mk.injEq] at otherMade
        exact ⟨otherMade.1, otherMade.2.2⟩

theorem itemsAuthored_run {events : List Event} (reached : Machine.run step {} events = some s) :
    s.ItemsAuthored (Machine.trace step {} events) := by
  refine Machine.run_induction
    (motive := fun events s => s.ItemsAuthored (Machine.trace step {} events))
    itemsAuthored_initial ?_ reached
  intro events state event next toState items stepped
  rw [Machine.trace_concat toState]
  exact itemsAuthored_step (queuesWellFormed_run toState) items stepped

/-- The keys that the events of a history take from `childByAutoId`. -/
def newKeys (history : List (System × Event)) : List String :=
  history.filterMap fun taken => (taken.1.newKey taken.2).map Prod.snd

theorem mem_newKeys_iff {history : List (System × Event)} {key : String} :
    key ∈ newKeys history ↔ ∃ uid item, Authored history uid key item := by
  simp only [newKeys, List.mem_filterMap, Option.map_eq_some_iff]
  constructor
  · rintro ⟨taken, taken_mem, ⟨uid, _⟩, isNew, rfl⟩
    rcases newItem_of_newKey isNew with ⟨item, made⟩
    exact ⟨uid, item, taken, taken_mem, made⟩
  · rintro ⟨uid, item, taken, taken_mem, made⟩
    exact ⟨taken, taken_mem, (uid, key), newKey_of_newItem made, rfl⟩

theorem nodup_newKeys_run {events : List Event} (reached : Machine.run step {} events = some s) :
    (newKeys (Machine.trace step {} events)).Nodup := by
  refine Machine.run_induction (motive := fun events _ =>
    (newKeys (Machine.trace step {} events)).Nodup) List.nodup_nil ?_ reached
  intro events state event next toState nodup stepped
  rw [Machine.trace_concat toState, newKeys, List.filterMap_append, ← newKeys]
  cases isNew : state.newKey event with
  | none => simpa [isNew] using nodup
  | some made =>
      have unissued : made.2 ∉ newKeys (Machine.trace step {} events) := by
        intro issued
        rcases mem_newKeys_iff.mp issued with ⟨uid, item, authored⟩
        exact (keys_step stepped).2 made.1 made.2 isNew
          ((itemsAuthored_run toState).used uid made.2 item authored)
      simpa [isNew] using nodup.concat unissued

/-- One position of the history issues the key: there the account issues the item. -/
def IssuedOnce (history : List (System × Event)) (uid key : String) (item : Record) : Prop :=
  ∃ before taken after, history = before ++ taken :: after ∧
    taken.1.newItem taken.2 = some (uid, key, item) ∧
    ∀ other ∈ before ++ after, ∀ owner otherItem,
      other.1.newItem other.2 ≠ some (owner, key, otherItem)

theorem Authored.issuedOnce {events : List Event} (reached : Machine.run step {} events = some s)
    {uid key : String} {item : Record}
    (authored : Authored (Machine.trace step {} events) uid key item) :
    IssuedOnce (Machine.trace step {} events) uid key item := by
  rcases authored with ⟨taken, taken_mem, made⟩
  rcases List.append_of_mem taken_mem with ⟨before, after, split⟩
  refine ⟨before, taken, after, split, made, ?_⟩
  intro other other_mem owner otherItem madeToo
  have elsewhere : key ∈ newKeys (before ++ after) :=
    mem_newKeys_iff.mpr ⟨owner, otherItem, other, other_mem, madeToo⟩
  have keys : (newKeys (Machine.trace step {} events)).Perm (key :: newKeys (before ++ after)) := by
    rw [split]
    refine (List.perm_middle.filterMap _).trans (List.Perm.of_eq ?_)
    simp [newKeys, newKey_of_newItem made]
  have nodup := keys.nodup_iff.mp (nodup_newKeys_run reached)
  exact (List.nodup_cons.mp nodup).1 elsewhere

/-- In every reachable state, each id in a user's item list is stored as an item that this user has
issued under this id, by the sign-up or by a Save with these texts, at one position of the history,
and no other position issues the id. -/
theorem listedItems_authored {events : List Event} (reached : Machine.run step {} events = some s)
    {uid : String} {itemIds : List String} (stored : itemListOf s.db uid = some itemIds)
    {itemId : String} (listed : itemId ∈ itemIds) :
    ∃ item, itemRecord s.db itemId = some item ∧
      IssuedOnce (Machine.trace step {} events) uid itemId item := by
  have items := itemsAuthored_run reached
  have isStored := (listsSupplied_run reached).stored uid itemIds stored itemId listed
  rcases Option.isSome_iff_exists.mp isStored with ⟨item, hasItem⟩
  rcases items.listed uid itemIds (.stored stored) itemId listed with ⟨issued, authored⟩
  rcases items.stored itemId item hasItem with ⟨author, isAuthor⟩
  rcases items.unique uid author itemId issued item authored isAuthor with ⟨rfl, rfl⟩
  exact ⟨issued, hasItem, authored.issuedOnce reached⟩

theorem listedItems_saveAndFollow :
    let s := (Machine.run step {} saveAndFollow).get (by decide)
    ∃ item, itemRecord s.db "hat" = some item ∧
      IssuedOnce (Machine.trace step {} saveAndFollow) "ann" "hat" item := by
  intro s
  have stored : itemListOf s.db "ann" = some ["hat"] := by decide
  exact listedItems_authored (Option.some_get _).symm stored (by decide)

end System

end PriceTracker
