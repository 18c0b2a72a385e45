import PriceTracker.Uniqueness
import PriceTracker.Library.Outbox

/-!
# Integrity of the item store

Every id in a stored item list is a key of `items`, every entry of `items` is complete,
and entries are never changed. A write sequence may be cut off anywhere and a page may
write back a stale list, so the invariant speaks about what waits as well: a list that
waits, or is held by an open page, only has items that are stored or that wait in front
of it in the same outbox.
-/

namespace PriceTracker

/-- The items that a write brings into `items`. -/
def Write.provides (write : Write) : Set String :=
  {itemId | ∃ item, write.itemWritten = some (itemId, item)}

/-- The items that the list in a write refers to. -/
def Write.requires (write : Write) : Set String :=
  {itemId | ∃ uid itemIds, write.itemListWritten = some (uid, itemIds) ∧ itemId ∈ itemIds}

def storedItems (db : Database) : Set String :=
  {itemId | (itemRecord db itemId).isSome}

/-- The ids of the items that waiting writes bring, in order of issue. -/
def itemIdsWritten (writes : List Write) : List String :=
  writes.filterMap fun write => write.itemWritten.map Prod.fst

theorem storedItems_apply (db : Database) (write : Write) :
    storedItems (write.apply db) = storedItems db ∪ write.provides := by
  ext itemId
  simp only [storedItems, Set.mem_ofPred_eq, Set.mem_union, Write.provides, itemRecord_apply]
  cases write with
  | setItem newItemId itemAttr =>
      by_cases same : itemId = newItemId
      · simp [same, Write.itemWritten]
      · simp [same, Ne.symm same, Write.itemWritten]
  | _ => simp [Write.itemWritten]

theorem storedItems_subset_apply (db : Database) (write : Write) :
    storedItems db ⊆ storedItems (write.apply db) := by
  rw [storedItems_apply]
  exact Set.subset_union_left

theorem mem_provides_iff {write : Write} {itemId : String} :
    itemId ∈ write.provides ↔ itemId ∈ (write.itemWritten.map Prod.fst).toList := by
  simp [Write.provides]

namespace System

variable {s next : System} {event : Event}

/-! ## New items have unused keys -/

/-- Stored and waiting items have used keys, and an item that waits is stored nowhere and
waits nowhere else. -/
structure NewItemsFresh (s : System) : Prop where
  stored : ∀ itemId ∈ storedItems s.db, itemId ∈ s.keys
  waiting : ∀ client, itemIdsWritten (s.queue client) ⊆ s.keys
  absent : ∀ client, ∀ itemId ∈ itemIdsWritten (s.queue client), itemId ∉ storedItems s.db
  nodup : ∀ client, (itemIdsWritten (s.queue client)).Nodup
  disjoint : ∀ client other, client ≠ other →
    (itemIdsWritten (s.queue client)).Disjoint (itemIdsWritten (s.queue other))

theorem itemIdsWritten_issued {client : Nat} {writes : List Write}
    (issues : s.Issues event client writes) :
    itemIdsWritten writes = ((s.newKey event).map Prod.snd).toList := by
  rcases issues with _ | @⟨page, session, button, after, writes, isRunning, hasButton⟩
  · rfl
  · cases button with
    | save form newItemId =>
        rcases (Page.press_save hasButton).2.2 with ⟨itemAttr, _, rfl⟩
        simp [itemIdsWritten, Write.itemWritten, newKey, isRunning]
    | follow =>
        rcases (Page.press_follow hasButton).2.2 with ⟨_, _, rfl⟩ | ⟨_, _, rfl⟩ <;> rfl

theorem newItemsFresh_initial : ({} : System).NewItemsFresh := by
  constructor <;> simp [storedItems, itemRecord, itemIdsWritten]

theorem newItemsFresh_iff : s.NewItemsFresh ↔
    Outbox.Fresh (fun write => write.itemWritten.map Prod.fst) {key | key ∈ s.keys}
      (storedItems s.db) s.queue := by
  constructor
  · rintro ⟨stored, waiting, absent, nodup, disjoint⟩
    exact ⟨stored, waiting, absent, nodup, disjoint⟩
  · rintro ⟨stored, waiting, absent, nodup, disjoint⟩
    exact ⟨stored, waiting, absent, nodup, disjoint⟩

theorem queue_of_stopped {issuer : Nat} (emptied : next.queue = Function.update s.queue issuer [])
    (client : Nat) : next.queue client = s.queue client ∨ next.queue client = [] := by
  rw [emptied]
  by_cases same : client = issuer
  · subst same
    exact Or.inr (Function.update_self _ _ _)
  · exact Or.inl (Function.update_of_ne same _ _)

theorem newItemsFresh_step (fresh : s.NewItemsFresh) (stepped : s.step event = some next) :
    next.NewItemsFresh := by
  rw [newItemsFresh_iff] at fresh ⊢
  have keys := keys_subset_step stepped
  rcases effect_step stepped with ⟨sameDb, sameQueue⟩ | ⟨issuer, writes, issues, sameDb, extended⟩ |
    ⟨issuer, write, rest, _, queued, applied, shortened⟩ | ⟨issuer, _, sameDb, emptied⟩
  · rw [sameDb]
    exact fresh.dropped keys fun client => Or.inl (congrFun sameQueue client)
  · rw [sameDb]
    have written := itemIdsWritten_issued issues
    refine fresh.issued keys ?_ ?_ extended
    · intro itemId itemId_mem
      have isKey : itemId ∈ ((s.newKey event).map Prod.snd).toList := written ▸ itemId_mem
      simp only [Option.mem_toList, Option.map_eq_some_iff] at isKey
      rcases isKey with ⟨⟨owner, key⟩, taken, rfl⟩
      exact ⟨(keys_step stepped).2 owner key taken, newKey_mem_step stepped taken⟩
    · have nodup : (itemIdsWritten writes).Nodup := by
        rw [written]
        cases s.newKey event <;> simp
      exact nodup
  · refine fresh.persisted keys queued ?_ shortened
    intro itemId isStored
    rw [applied, storedItems_apply] at isStored
    exact isStored.imp_right mem_provides_iff.mp
  · rw [sameDb]
    exact fresh.dropped keys (queue_of_stopped emptied)

theorem newItemsFresh_run {events : List Event} (reached : Machine.run step {} events = some s) :
    s.NewItemsFresh :=
  Machine.invariant_run (fun _ _ _ => newItemsFresh_step) newItemsFresh_initial reached

/-! ## Stored items stay as they are -/

/-- No step changes or removes an entry of `items`. -/
theorem itemRecord_step (fresh : s.NewItemsFresh) (stepped : s.step event = some next)
    {itemId : String} {item : Record} (stored : itemRecord s.db itemId = some item) :
    itemRecord next.db itemId = some item := by
  rcases db_step stepped with same | ⟨client, write, rest, _, queued, applied⟩
  · rw [same]
    exact stored
  · rw [applied, itemRecord_apply]
    cases write with
    | setItem newItemId itemAttr =>
        have different : itemId ≠ newItemId := by
          rintro rfl
          refine fresh.absent client itemId ?_ (by simp [storedItems, stored])
          simp [queued, itemIdsWritten, Write.itemWritten]
        simp only [if_neg different]
        exact stored
    | _ => exact stored

def ItemsComplete (db : Database) : Prop :=
  ∀ itemId item, itemRecord db itemId = some item → CompleteItem item

theorem itemsComplete_step (wellFormed : s.QueuesWellFormed) (complete : ItemsComplete s.db)
    (stepped : s.step event = some next) : ItemsComplete next.db := by
  intro itemId item stored
  rcases db_step stepped with same | ⟨client, write, rest, _, queued, applied⟩
  · rw [same] at stored
    exact complete itemId item stored
  · rw [applied, itemRecord_apply] at stored
    cases write with
    | setItem newItemId itemAttr =>
        simp only at stored
        split_ifs at stored
        · simp only [Option.some.injEq] at stored
          subst stored
          exact wellFormed client (.setItem newItemId itemAttr) (by simp [queued])
        · exact complete itemId item stored
    | _ => exact complete itemId item stored

/-! ## Listed items are stored first -/

/-- Every item of a list is stored, or waits to be stored before the list. -/
structure ListsSupplied (s : System) : Prop where
  stored : ∀ uid itemIds, itemListOf s.db uid = some itemIds →
    ∀ itemId ∈ itemIds, itemId ∈ storedItems s.db
  queued : ∀ client,
    Outbox.Supplied Write.provides Write.requires (storedItems s.db) (s.queue client)
  onPage : ∀ page session, s.running page = some session → ∀ itemId ∈ session.page.itemIds,
    itemId ∈ Outbox.available Write.provides (storedItems s.db) (s.queue session.client)

theorem storedItems_subset_step (stepped : s.step event = some next) :
    storedItems s.db ⊆ storedItems next.db := by
  rcases db_step stepped with same | ⟨_, write, _, _, _, applied⟩
  · rw [same]
  · rw [applied]
    exact storedItems_subset_apply s.db write

theorem listsSupplied_initial : ({} : System).ListsSupplied := by
  constructor
  · intro uid itemIds stored
    exact absurd (ItemListAt.stored stored) not_itemListAt_initial
  · intro client
    exact .nil
  · intro page session isRunning
    simp [running] at isRunning

/-- What a client can rely on only grows, unless its app stops. -/
theorem available_step (stepped : s.step event = some next) {client : Nat}
    (goesOn : event ≠ .stop client) :
    Outbox.available Write.provides (storedItems s.db) (s.queue client) ⊆
      Outbox.available Write.provides (storedItems next.db) (next.queue client) := by
  rcases effect_step stepped with ⟨sameDb, sameQueue⟩ | ⟨issuer, writes, _, sameDb, extended⟩ |
    ⟨issuer, write, rest, _, queued, applied, shortened⟩ | ⟨issuer, isEvent, sameDb, emptied⟩
  · rw [sameDb, sameQueue]
  · rw [sameDb, extended]
    by_cases same : client = issuer
    · subst same
      rw [Function.update_self]
      exact Outbox.available_subset_append
    · rw [Function.update_of_ne same]
  · rw [shortened]
    by_cases same : client = issuer
    · subst same
      rw [Function.update_self, queued, Outbox.available_cons, applied, storedItems_apply]
    · rw [Function.update_of_ne same]
      exact Outbox.available_mono (storedItems_subset_step stepped)
  · have different : client ≠ issuer := by
      rintro rfl
      exact goesOn isEvent
    rw [sameDb, emptied, Function.update_of_ne different]

/-- Issued writes are supplied by what was issued before and by the page they come from. -/
theorem supplied_issued {client : Nat} {writes : List Write} (lists : s.ListsSupplied)
    (issues : s.Issues event client writes) :
    Outbox.Supplied Write.provides Write.requires
      (Outbox.available Write.provides (storedItems s.db) (s.queue client)) writes := by
  rcases issues with _ | @⟨page, session, button, after, writes, isRunning, hasButton⟩
  · refine .cons ?_ (.cons ?_ (.cons ?_ (.cons ?_ .nil)))
    · simp [Write.requires, Write.itemListWritten]
    · simp [Write.requires, Write.itemListWritten]
    · simp [Write.requires, Write.itemListWritten]
    · rintro itemId ⟨uid, itemIds, written, itemId_mem⟩
      simp only [Write.itemListWritten, Option.some.injEq, Prod.mk.injEq] at written
      rcases written with ⟨_, rfl⟩
      simp only [List.mem_singleton] at itemId_mem
      -- the sample item was issued three writes earlier
      subst itemId_mem
      exact Or.inl (Or.inl (Or.inr ⟨_, rfl⟩))
  · cases button with
    | save form newItemId =>
        rcases (Page.press_save hasButton).2.2 with ⟨itemAttr, _, rfl⟩
        refine .cons ?_ (.cons ?_ .nil)
        · simp [Write.requires, Write.itemListWritten]
        · rintro itemId ⟨uid, itemIds, written, itemId_mem⟩
          simp only [Write.itemListWritten, Option.some.injEq, Prod.mk.injEq] at written
          rcases written with ⟨rfl, rfl⟩
          rcases List.mem_append.mp itemId_mem with onPage | isNew
          · exact Or.inl (lists.onPage page session isRunning itemId onPage)
          · simp only [List.mem_singleton] at isNew
            exact Or.inr ⟨itemAttr, by simp [Write.itemWritten, isNew]⟩
    | follow =>
        rcases (Page.press_follow hasButton).2.2 with ⟨_, _, rfl⟩ | ⟨_, _, rfl⟩
        · exact .nil
        · refine .cons ?_ .nil
          simp [Write.requires, Write.itemListWritten]

theorem supplied_step (lists : s.ListsSupplied) (stepped : s.step event = some next)
    (client : Nat) :
    Outbox.Supplied Write.provides Write.requires (storedItems next.db) (next.queue client) := by
  rcases effect_step stepped with ⟨sameDb, sameQueue⟩ | ⟨issuer, writes, issues, sameDb, extended⟩ |
    ⟨issuer, write, rest, _, queued, applied, shortened⟩ | ⟨issuer, _, sameDb, emptied⟩
  · rw [sameDb, sameQueue]
    exact lists.queued client
  · rw [sameDb]
    exact Outbox.supplied_issued lists.queued (supplied_issued lists issues) extended client
  · rw [applied, storedItems_apply]
    exact Outbox.supplied_persisted lists.queued queued (Set.Subset.refl _) shortened client
  · rw [sameDb]
    exact Outbox.supplied_dropped lists.queued (queue_of_stopped emptied) client

theorem stored_step (wellFormed : s.QueuesWellFormed) (lists : s.ListsSupplied)
    (stepped : s.step event = some next) {uid : String} {itemIds : List String}
    (holds : itemListOf next.db uid = some itemIds) :
    ∀ itemId ∈ itemIds, itemId ∈ storedItems next.db := by
  intro itemId itemId_mem
  apply storedItems_subset_step stepped
  rcases db_step stepped with same | ⟨client, write, rest, _, queued, applied⟩
  · rw [same] at holds
    exact lists.stored uid itemIds holds itemId itemId_mem
  · rw [applied] at holds
    rcases itemListOf_apply_cases (wellFormed client write (by simp [queued])) holds with
      old | written
    · exact lists.stored uid itemIds old itemId itemId_mem
    · -- the front of an outbox has everything it refers to
      have supplied := lists.queued client
      rw [queued, Outbox.supplied_cons_iff] at supplied
      exact supplied.1 ⟨uid, itemIds, written, itemId_mem⟩

theorem ne_stop_of_running (stepped : s.step event = some next) {page : Nat} {session : Session}
    (isRunning : next.running page = some session) : event ≠ .stop session.client := by
  rintro rfl
  rw [step_stop stepped] at isRunning
  rcases running_eq_some_iff.mp isRunning with ⟨isOpen, runs⟩
  rcases Option.map_eq_some_iff.mp isOpen with ⟨before, _, stops⟩
  unfold Session.stop at stops
  split_ifs at stops with same
  · subst stops
    simp at runs
  · subst stops
    exact same ⟨rfl, runs⟩

theorem onPage_step (lists : s.ListsSupplied) (stepped : s.step event = some next) {page : Nat}
    {session : Session} (isRunning : next.running page = some session) :
    ∀ itemId ∈ session.page.itemIds,
      itemId ∈ Outbox.available Write.provides (storedItems next.db)
        (next.queue session.client) := by
  intro itemId itemId_mem
  have grows := available_step stepped (ne_stop_of_running stepped isRunning)
  rcases running_eq_some_iff.mp isRunning with ⟨isOpen, runs⟩
  rcases sessionOrigin_step stepped isOpen with
    ⟨before, wasOpen, _, sameClient, samePage, stillRunning⟩ | ⟨client, userID, screen, _, _, rfl⟩ |
    ⟨before, callback, snapshot, _, wasRunning, taken, _, sameClient, ran⟩ |
    ⟨before, button, writes, isEvent, wasRunning, _, sameClient, hasButton⟩
  · rw [samePage] at itemId_mem
    apply grows
    rw [sameClient]
    exact lists.onPage page before (running_eq_some_iff.mpr ⟨wasOpen, stillRunning runs⟩) itemId
      itemId_mem
  · rw [(Page.lists_viewDidLoad screen).1] at itemId_mem
    simp at itemId_mem
  · apply grows
    rcases Page.itemIds_callback ran with same | ⟨isUsers, user, found, list⟩
    · rw [same] at itemId_mem
      rw [sameClient]
      exact lists.onPage page before wasRunning itemId itemId_mem
    · rw [taken.lookup, isUsers] at found
      refine Outbox.subset_available (lists.stored before.userID session.page.itemIds ?_ itemId
        itemId_mem)
      rw [itemListOf, userRecord, found, Option.bind_some, list]
  · cases button with
    | save form newItemId =>
        rw [(Page.press_save hasButton).1] at itemId_mem
        rcases List.mem_append.mp itemId_mem with old | isNew
        · apply grows
          rw [sameClient]
          exact lists.onPage page before wasRunning itemId old
        · -- the new item waits in the outbox of the client
          simp only [List.mem_singleton] at isNew
          subst isNew
          rcases (Page.press_save hasButton).2.2 with ⟨itemAttr, _, rfl⟩
          subst isEvent
          rcases step_press stepped with ⟨running, pressed, writes, again, againButton, _, rfl⟩
          rw [wasRunning, Option.some.injEq] at again
          subst again
          rw [hasButton, Option.some.injEq, Prod.mk.injEq] at againButton
          rcases againButton with ⟨_, rfl⟩
          refine Or.inr ⟨.setItem itemId itemAttr, ?_, itemAttr, rfl⟩
          simp [issue, sameClient]
    | follow =>
        rw [(Page.press_follow hasButton).1] at itemId_mem
        apply grows
        rw [sameClient]
        exact lists.onPage page before wasRunning itemId itemId_mem

theorem listsSupplied_step (wellFormed : s.QueuesWellFormed) (lists : s.ListsSupplied)
    (stepped : s.step event = some next) : next.ListsSupplied where
  stored := fun _ _ holds => stored_step wellFormed lists stepped holds
  queued := supplied_step lists stepped
  onPage := fun _ _ isRunning => onPage_step lists stepped isRunning

theorem listsSupplied_run {events : List Event} (reached : Machine.run step {} events = some s) :
    s.ListsSupplied := by
  refine Machine.run_induction (motive := fun _ s => s.ListsSupplied) listsSupplied_initial ?_
    reached
  intro events state event next toState lists stepped
  exact listsSupplied_step (queuesWellFormed_run toState) lists stepped

theorem itemsComplete_run {events : List Event} (reached : Machine.run step {} events = some s) :
    ItemsComplete s.db := by
  refine Machine.run_induction (motive := fun _ s => ItemsComplete s.db) ?_ ?_ reached
  · intro itemId item stored
    simp [itemRecord] at stored
  · intro events state event next toState complete stepped
    exact itemsComplete_step (queuesWellFormed_run toState) complete stepped

/-- In a reachable state a list refers to stored items only, and stored items are complete. -/
structure ItemStoreIntact (db : Database) : Prop where
  listed : ∀ uid itemIds, itemListOf db uid = some itemIds →
    ∀ itemId ∈ itemIds, itemId ∈ (db firItemsNode).keys
  complete : ∀ itemId item, itemRecord db itemId = some item → CompleteItem item

theorem complete_entries {db : Database} (complete : ItemsComplete db) {snapshot : Collection}
    (taken : Store.IsSnapshot snapshot (db firItemsNode)) :
    ∀ entry ∈ snapshot.entries, CompleteItem entry.2 := by
  rintro ⟨itemId, item⟩ entry_mem
  apply complete itemId item
  rw [itemRecord, ← taken.lookup]
  exact Store.mem_entries_iff.mp entry_mem

theorem itemRecord_run {first second : List Event} {middle : System}
    (toMiddle : Machine.run step {} first = some middle)
    (reached : Machine.run step middle second = some s) {itemId : String} {item : Record}
    (stored : itemRecord middle.db itemId = some item) : itemRecord s.db itemId = some item := by
  refine Machine.run_induction (motive := fun _ s => itemRecord s.db itemId = some item) stored ?_
    reached
  intro events state event next toState holds stepped
  exact itemRecord_step (newItemsFresh_run (Machine.run_trans toMiddle toState)) stepped holds

/-- In every reachable state the item store is intact, it has kept the entries of every earlier
state, and no callback that reads the items can fail, whatever its page holds. -/
theorem itemStore_reachable {first second : List Event} {middle s : System}
    (toMiddle : Machine.run step {} first = some middle)
    (reached : Machine.run step middle second = some s) :
    ItemStoreIntact s.db ∧
      (∀ itemId item, itemRecord middle.db itemId = some item →
        itemRecord s.db itemId = some item) ∧
      ∀ snapshot, Store.IsSnapshot snapshot (s.db firItemsNode) →
        (∀ vc : ProfileVC, (vc.setItems snapshot).isSome) ∧
        (∀ vc : UserVC, (vc.getItems snapshot).isSome) ∧
        (∀ vc : UserCopyVC, (vc.getItems snapshot).isSome) ∧
        ∀ vc : FriendFeedVC, (vc.getRecentItemNames snapshot).isSome := by
  have toState := Machine.run_trans toMiddle reached
  have complete := itemsComplete_run toState
  refine ⟨⟨?_, complete⟩, fun _ _ => itemRecord_run toMiddle reached, ?_⟩
  · intro uid itemIds stored itemId itemId_mem
    rw [Store.mem_keys_iff]
    exact (listsSupplied_run toState).stored uid itemIds stored itemId itemId_mem
  · intro snapshot taken
    have entries := complete_entries complete taken
    exact ⟨fun _ => ProfileVC.isSome_setItems entries, fun _ => UserVC.isSome_getItems entries,
      fun _ => UserCopyVC.isSome_getItems entries,
      fun _ => FriendFeedVC.isSome_getRecentItemNames entries⟩

/-- A sign-up that is cut off after its second write; the account then saves an item. -/
def cutOffThenSave : List Event :=
  [.signUp 0 "ann" "shoes" "Ann" "ann@example.com", .persist 0, .persist 0, .stop 0,
    .viewDidLoad 0 1 "ann" .addEntry, .press 0 (.save ⟨"Hat", "", "", ""⟩ "hat")]

theorem itemStore_cutOffThenSave :
    let middle := (Machine.run step {} cutOffThenSave).get (by decide)
    let s := (Machine.run step middle [.persist 1, .persist 1]).get (by decide)
    ItemStoreIntact s.db ∧
      (∀ itemId item, itemRecord middle.db itemId = some item →
        itemRecord s.db itemId = some item) ∧
      ∀ snapshot, Store.IsSnapshot snapshot (s.db firItemsNode) →
        (∀ vc : ProfileVC, (vc.setItems snapshot).isSome) ∧
        (∀ vc : UserVC, (vc.getItems snapshot).isSome) ∧
        (∀ vc : UserCopyVC, (vc.getItems snapshot).isSome) ∧
        ∀ vc : FriendFeedVC, (vc.getRecentItemNames snapshot).isSome :=
  itemStore_reachable (Option.some_get _).symm (Option.some_get _).symm

end System

end PriceTracker
