import PriceTracker.SharedLists

/-!
# When Save adds to the stored wishlist

An entry page writes its whole copy of the item list back. With writes at once a Save
appends its key to the stored list exactly when the copy is in sync: the page has received
its snapshot or has saved before, and no other page of the account has saved since. Keys
are never used twice, so a copy that misses a Save is never equal to the stored list.
-/

namespace PriceTracker

namespace System

variable {uid : String} {start s next : System} {event : Event}

/-- The stored item ids are keys that were used. -/
def ItemIdsUsed (uid : String) (s : System) : Prop :=
  ∀ itemIds, itemListOf s.db uid = some itemIds → itemIds ⊆ s.keys

/-- A Save of the account appends its key to the stored item list. -/
def SaveAppends (uid : String) (s : System) : Event → Prop
  | .press page (.save form newItemId) =>
      ∀ session, s.running page = some session → session.userID = uid →
        ∀ itemIds, itemListOf s.db uid = some itemIds →
          ∀ next, s.stepNow Event.atOnce (.press page (.save form newItemId)) = some next →
            itemListOf next.db uid = some (itemIds ++ [newItemId])
  | _ => True

/-- A Save of the account is pressed on a page that is in sync with the stored item list. -/
def SaveInSync (uid : String) (history : List (System × Event)) (s : System) : Event → Prop
  | .press page (.save _ _) =>
      ∀ session, s.running page = some session → session.userID = uid →
        CachedList.InSync page (itemView.actions uid history)
  | _ => True

instance (uid : String) (history : List (System × Event)) (s : System) :
    DecidablePred (SaveInSync uid history s)
  | .press page (.save _ _) => inferInstanceAs (Decidable (∀ session ∈ s.running page,
      session.userID = uid → CachedList.InSync page (itemView.actions uid history)))
  | .press _ .follow | .signUp _ _ _ _ _ | .viewDidLoad _ _ _ _ | .viewWillAppear _
  | .deliver _ _ _ | .persist _ | .stop _ => .isTrue trivial

/-- In a run no wishlist entry of the account is lost. -/
structure NoEntryLost (uid : String) (start : System) (events : List Event) : Prop where
  appends : Machine.EachStep (stepNow Event.atOnce) (fun _ => SaveAppends uid) start events
  stays : ∀ before after earlier later, events = before ++ after →
    Machine.run (stepNow Event.atOnce) start before = some earlier →
    Machine.run (stepNow Event.atOnce) earlier after = some later →
    ∀ itemIds, itemListOf earlier.db uid = some itemIds →
      ∃ laterIds, itemListOf later.db uid = some laterIds ∧ itemIds ⊆ laterIds

theorem itemAction_cases (idle : s.Idle) (account : uid ∈ s.accounts)
    (stepped : s.stepNow Event.atOnce event = some next) {action : CachedList.Action Nat String}
    (acts : itemView.action uid s event = some action) :
    (∃ page, action = .load page) ∨
      ∃ page key, action = .append page key ∧ key ∉ s.keys ∧ key ∈ next.keys := by
  rcases ListView.action_cases idle account stepped acts with
    isLoad | ⟨page, session, button, change, rfl, _, _, changes, rfl⟩
  · exact Or.inl isLoad
  · rcases itemListChange_eq_some_iff.mp changes with ⟨vc, form, newItemId, _, rfl, rfl⟩
    rcases stepNow_press idle stepped with ⟨_, _, _, _, _, fresh, rfl⟩
    exact Or.inr ⟨page, newItemId, rfl, fresh newItemId rfl, by simp [Button.newKey]⟩

/-- What holds of the keys in a run of a signed-up account. -/
structure KeysTracked (uid : String) (start : System) (actions : List (CachedList.Action Nat String))
    (s : System) : Prop where
  account : uid ∈ s.accounts
  keys : start.keys ⊆ s.keys
  appended : ∀ page key, .append page key ∈ actions → key ∈ s.keys
  fresh : CachedList.FreshAppends (itemView.state uid start).stored actions

theorem keysTracked_run (ready : AccountReady uid start) (used : ItemIdsUsed uid start)
    {events : List Event} (reached : Machine.run (stepNow Event.atOnce) start events = some s) :
    KeysTracked uid start
      (itemView.actions uid (Machine.trace (stepNow Event.atOnce) start events)) s := by
  have storedUsed : (itemView.state uid start).stored ⊆ start.keys := by
    rcases Option.isSome_iff_exists.mp ready.isSome_itemListOf with ⟨itemIds, stored⟩
    simpa [ListView.state, itemView, stored] using used itemIds stored
  refine Machine.run_induction (motive := fun events s => KeysTracked uid start
    (itemView.actions uid (Machine.trace (stepNow Event.atOnce) start events)) s) ?_ ?_ reached
  · exact ⟨ready.account, List.Subset.refl _, by simp [ListView.actions],
      by simp [CachedList.FreshAppends, ListView.actions]⟩
  · intro events state event next toState tracked stepped
    have idle := idle_run ready.idle toState
    rcases subset_stepNow idle stepped with ⟨accounts, keys⟩
    rw [Machine.trace_concat toState, ListView.actions_concat]
    cases acts : itemView.action uid state event with
    | none =>
        rw [Option.toList_none, List.append_nil]
        exact ⟨accounts tracked.account, List.Subset.trans tracked.keys keys,
          fun page key key_mem => keys (tracked.appended page key key_mem), tracked.fresh⟩
    | some action =>
        rw [Option.toList_some]
        have appended : ∀ page key,
            .append page key ∈ itemView.actions uid (Machine.trace (stepNow Event.atOnce) start events) ++
              [action] → key ∈ next.keys := by
          intro page key key_mem
          rcases List.mem_append.mp key_mem with old | isLast
          · exact keys (tracked.appended page key old)
          · rw [List.mem_singleton] at isLast
            rcases itemAction_cases idle tracked.account stepped acts with
              ⟨_, isLoad⟩ | ⟨_, _, isAppend, _, isUsed⟩
            · rw [isLoad] at isLast
              cases isLast
            · rw [isAppend] at isLast
              cases isLast
              exact isUsed
        refine ⟨accounts tracked.account, List.Subset.trans tracked.keys keys, appended,
          tracked.fresh.concat ?_ ?_⟩
        · rintro list rfl
          rcases itemAction_cases idle tracked.account stepped acts with
            ⟨_, isLoad⟩ | ⟨_, _, isAppend, _⟩
          · cases isLoad
          · cases isAppend
        · rintro page key rfl
          rcases itemAction_cases idle tracked.account stepped acts with
            ⟨_, isLoad⟩ | ⟨_, _, isAppend, isNew, _⟩
          · cases isLoad
          · cases isAppend
            constructor
            · intro wasStored
              exact isNew (tracked.keys (storedUsed wasStored))
            · intro other wasAppended
              exact isNew (tracked.appended other key wasAppended)

theorem isSome_itemListOf_run (ready : AccountReady uid start) {events : List Event}
    (reached : Machine.run (stepNow Event.atOnce) start events = some s) :
    (itemListOf s.db uid).isSome :=
  itemView.isSome_stored_run ready.idle ready.isSome_itemListOf reached

/-- The copy of a page is the stored item list exactly when the page is in sync. -/
theorem copy_eq_stored_iff (ready : AccountReady uid start) (used : ItemIdsUsed uid start)
    {events : List Event} (reached : Machine.run (stepNow Event.atOnce) start events = some s)
    (page : Nat) :
    (itemView.state uid s).copy page = (itemView.state uid s).stored ↔
      CachedList.InSync page
        (itemView.actions uid (Machine.trace (stepNow Event.atOnce) start events)) := by
  have tracked := keysTracked_run ready used reached
  rw [ListView.state_run ready.idle (fun _ _ toState =>
    ListView.served_of_isSome (isSome_itemListOf_run ready toState)) reached]
  refine CachedList.copy_eq_stored_iff_inSync ?_ ?_ tracked.fresh
  · rcases ready.complete with ⟨user, stored, complete⟩
    rcases complete.itemList with ⟨itemIds, hasItems, nonempty⟩
    simpa [ListView.state, itemView, itemListOf, stored, hasItems] using nonempty
  · intro other
    cases isOpen : start.sessions other with
    | none => simp [ListView.state, isOpen]
    | some session =>
        simp [ListView.state, isOpen, ListView.sessionCopy, ready.closed other session isOpen]

theorem itemListOf_save {page : Nat} {form : EntryForm} {newItemId : String} {session : Session}
    (idle : s.Idle) (isStored : (itemListOf s.db uid).isSome)
    (isRunning : s.running page = some session) (sameUser : session.userID = uid)
    (stepped : s.stepNow Event.atOnce (.press page (.save form newItemId)) = some next) :
    itemListOf next.db uid = some ((itemView.state uid s).copy page ++ [newItemId]) := by
  have isSave : session.page.itemListChange (.save form newItemId) = some (.append newItemId) := by
    rcases stepNow_press idle stepped with ⟨_, after, writes, alsoRunning, hasButton, _⟩
    rw [isRunning, Option.some.injEq] at alsoRunning
    subst alsoRunning
    cases kind : session.page <;> simp [kind, Page.press] at hasButton
    rfl
  have acts : itemView.action uid s (.press page (.save form newItemId)) =
      some (.append page newItemId) := by
    simp [ListView.action, isRunning, sameUser, itemView, isSave, ListChange.action]
  have stored : itemListOf next.db uid = _ := itemView.stored_stepNow idle isStored stepped
  rw [stored, acts]
  rfl

theorem saveAppends_iff_saveInSync (ready : AccountReady uid start) (used : ItemIdsUsed uid start)
    {events : List Event} (reached : Machine.run (stepNow Event.atOnce) start events = some s)
    (stepped : s.stepNow Event.atOnce event = some next) :
    SaveAppends uid s event ↔
      SaveInSync uid (Machine.trace (stepNow Event.atOnce) start events) s event := by
  have idle := idle_run ready.idle reached
  have isStored := isSome_itemListOf_run ready reached
  have stored : itemListOf s.db uid = some (itemView.state uid s).stored :=
    itemView.stored_eq_of_isSome isStored
  cases event with
  | press page button =>
      cases button with
      | follow => exact Iff.rfl
      | save form newItemId =>
          have synced := copy_eq_stored_iff ready used reached page
          constructor
          · intro appends session isRunning sameUser
            have appended := appends session isRunning sameUser _ stored next stepped
            rw [itemListOf_save idle isStored isRunning sameUser stepped, Option.some.injEq,
              List.append_left_inj] at appended
            exact synced.mp appended
          · intro inSync session isRunning sameUser itemIds isList following stepped
            rw [stored, Option.some.injEq] at isList
            rw [itemListOf_save idle isStored isRunning sameUser stepped,
              synced.mpr (inSync session isRunning sameUser), isList]
  | _ => exact Iff.rfl

theorem grows_of_saveAppends (idle : s.Idle) (account : uid ∈ s.accounts)
    (isStored : (itemListOf s.db uid).isSome) (appends : SaveAppends uid s event)
    (stepped : s.stepNow Event.atOnce event = some next) : itemView.Grows uid s next := by
  apply ListView.grows_of_change idle account isStored stepped
  rintro page session button change rfl isRunning sameUser changes itemIds stored
  rcases itemListChange_eq_some_iff.mp changes with ⟨vc, form, newItemId, _, rfl, _⟩
  exact ⟨itemIds ++ [newItemId], appends session isRunning sameUser itemIds stored next stepped,
    List.subset_append_left _ _⟩

/-- With writes at once no wishlist entry of an account with a complete record is lost exactly
when each of its Saves is pressed on a page in sync: the page has received its snapshot or has
saved before, and no other page of the account has saved since. -/
theorem noEntryLost_iff_saveInSync (ready : AccountReady uid start) (used : ItemIdsUsed uid start)
    {events : List Event} (reached : Machine.run (stepNow Event.atOnce) start events = some s) :
    NoEntryLost uid start events ↔
      Machine.EachStep (stepNow Event.atOnce) (SaveInSync uid) start events := by
  have exact : Machine.EachStep (stepNow Event.atOnce) (fun _ => SaveAppends uid) start events ↔
      Machine.EachStep (stepNow Event.atOnce) (SaveInSync uid) start events :=
    Machine.eachStep_congr reached fun _ _ _ _ _ _ toState stepped =>
      saveAppends_iff_saveInSync ready used toState stepped
  constructor
  · intro kept
    exact exact.mp kept.appends
  · intro inSync
    have appends := exact.mpr inSync
    refine ⟨appends, ?_⟩
    rintro before after earlier later rfl toEarlier toLater
    refine Machine.relation_run (itemView.Grows uid) ListView.Grows.refl ListView.Grows.trans
      toEarlier toLater ?_
    intro before event after middle next split toMiddle stepped
    rw [split] at appends
    exact grows_of_saveAppends (idle_run ready.idle toMiddle)
      (keysTracked_run ready used toMiddle).account (isSome_itemListOf_run ready toMiddle)
      (appends.of_split toMiddle) stepped

theorem itemIdsUsed_annSignedUp : ItemIdsUsed "ann" annSignedUp := by
  intro itemIds stored
  have first : itemListOf annSignedUp.db "ann" = some ["shoes1"] := by decide
  rw [first, Option.some.injEq] at stored
  subst stored
  decide

/-- Two devices open the entry page. The second one reads the list after the first one has saved,
and saves twice. -/
def savesOnTwoDevices : List Event :=
  let before : List Event :=
    [.viewDidLoad 0 0 "ann" .addEntry, .viewDidLoad 1 1 "ann" .addEntry,
      .deliver 0 .usersCallback (annSignedUp.db firUsersNode),
      .press 0 (.save ⟨"Hat", "", "", ""⟩ "hat")]
  let db := ((Machine.run (stepNow Event.atOnce) annSignedUp before).get (by decide)).db
  before ++ [.deliver 1 .usersCallback (db firUsersNode),
    .press 1 (.save ⟨"Scarf", "", "", ""⟩ "scarf"), .press 1 (.save ⟨"Coat", "", "", ""⟩ "coat")]

theorem noEntryLost_savesOnTwoDevices : NoEntryLost "ann" annSignedUp savesOnTwoDevices :=
  (noEntryLost_iff_saveInSync (s := (Machine.run (stepNow Event.atOnce) annSignedUp
    savesOnTwoDevices).get (by decide)) accountReady_annSignedUp itemIdsUsed_annSignedUp
    (Option.some_get _).symm).mpr (Machine.eachStep_of_forall_lt (by decide))

/-- `ann` saves before the page has received its snapshot. -/
def saveBeforeDelivery : List Event :=
  [.viewDidLoad 0 0 "ann" .addEntry, .press 0 (.save ⟨"Hat", "", "", ""⟩ "hat")]

/-- Then her first entry is lost. -/
theorem not_noEntryLost_saveBeforeDelivery :
    AccountReady "ann" annSignedUp ∧ ItemIdsUsed "ann" annSignedUp ∧
      ∃ s, Machine.run (stepNow Event.atOnce) annSignedUp saveBeforeDelivery = some s ∧
        ¬ NoEntryLost "ann" annSignedUp saveBeforeDelivery := by
  refine ⟨accountReady_annSignedUp, itemIdsUsed_annSignedUp, _, (Option.some_get (by decide)).symm, ?_⟩
  intro kept
  rcases kept.stays [] saveBeforeDelivery annSignedUp
    ((Machine.run (stepNow Event.atOnce) annSignedUp saveBeforeDelivery).get (by decide)) rfl rfl
    (Option.some_get _).symm ["shoes1"] (by decide) with ⟨laterIds, stored, grows⟩
  have overwritten : itemListOf ((Machine.run (stepNow Event.atOnce) annSignedUp
      saveBeforeDelivery).get (by decide)).db "ann" = some ["hat"] := by
    decide
  rw [overwritten, Option.some.injEq] at stored
  subst stored
  exact absurd (grows List.mem_cons_self) (by decide)

end System

end PriceTracker
