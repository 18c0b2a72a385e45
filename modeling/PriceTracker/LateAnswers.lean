import PriceTracker.Feed
import PriceTracker.MixedAccounts
import PriceTracker.Screens

/-!
# What late answers leave intact

A late answer changes the current user under the open pages of a client, so that a list read for
one account may be written for another one. The accounts of lists are lost then, but not the
items: in all runs of the app, with no assumption on presses, listed items are stored first, items
are complete and never change, and no list has an id twice. For this the invariants follow the
clients instead of the accounts, since a page and what waits to be written stay on one client.
-/

namespace PriceTracker

namespace Page

variable {page pressed : Page} {userID : String} {button : Button} {writes : List Write}

/-- A press issues well-formed writes. -/
theorem wellFormed_press (hasButton : page.press userID button = some (pressed, writes)) :
    ∀ write ∈ writes, write.WellFormed := by
  intro write issued
  cases button with
  | save form newItemId =>
      rcases (press_save hasButton).2.2 with ⟨itemAttr, complete, rfl⟩
      simp only [List.mem_cons, List.not_mem_nil, or_false] at issued
      rcases issued with rfl | rfl
      · exact complete
      · simp [Write.WellFormed]
  | follow =>
      rcases (press_follow hasButton).2.2 with ⟨_, _, rfl⟩ | ⟨_, _, rfl⟩
      · simp at issued
      · simp only [List.mem_singleton] at issued
        subst issued
        simp [Write.WellFormed]

theorem itemIdsWritten_press (hasButton : page.press userID button = some (pressed, writes)) :
    itemIdsWritten writes = button.newKey.toList := by
  cases button with
  | save form newItemId =>
      rcases (press_save hasButton).2.2 with ⟨itemAttr, _, rfl⟩
      rfl
  | follow =>
      rcases (press_follow hasButton).2.2 with ⟨_, _, rfl⟩ | ⟨_, _, rfl⟩ <;> rfl

/-- Where the items of the page are available, a press issues supplied writes, and with them the
items of the page are available again. -/
theorem supplied_press {present : Set String}
    (hasButton : page.press userID button = some (pressed, writes))
    (onPage : ∀ itemId ∈ page.itemIds, itemId ∈ present) :
    Outbox.Supplied Write.provides Write.requires present writes ∧
      ∀ itemId ∈ pressed.itemIds, itemId ∈ Outbox.available Write.provides present writes := by
  cases button with
  | save form newItemId =>
      rcases press_save hasButton with ⟨appended, _, itemAttr, _, rfl⟩
      have provided : newItemId ∈ (Write.setItem newItemId itemAttr).provides := ⟨itemAttr, rfl⟩
      refine ⟨.cons ?_ (.cons ?_ .nil), ?_⟩
      · simp [Write.requires, Write.itemListWritten]
      · rintro itemId ⟨uid, itemIds, written, itemId_mem⟩
        simp only [Write.itemListWritten, Option.some.injEq, Prod.mk.injEq] at written
        rcases written with ⟨rfl, rfl⟩
        rcases List.mem_append.mp itemId_mem with old | isNew
        · exact Or.inl (onPage itemId old)
        · rw [List.mem_singleton.mp isNew]
          exact Or.inr provided
      · intro itemId itemId_mem
        rw [appended] at itemId_mem
        rcases List.mem_append.mp itemId_mem with old | isNew
        · exact Outbox.subset_available (onPage itemId old)
        · rw [List.mem_singleton.mp isNew]
          exact Or.inr ⟨_, List.mem_cons_self, provided⟩
  | follow =>
      rcases press_follow hasButton with ⟨same, _, ⟨_, _, rfl⟩ | ⟨_, _, rfl⟩⟩
      · refine ⟨.nil, ?_⟩
        intro itemId itemId_mem
        rw [Outbox.available_nil]
        exact onPage itemId (same ▸ itemId_mem)
      · refine ⟨.cons ?_ .nil, ?_⟩
        · simp [Write.requires, Write.itemListWritten]
        · intro itemId itemId_mem
          exact Outbox.subset_available (onPage itemId (same ▸ itemId_mem))

/-- The items that the page has read or shows. -/
def readIds : Page → List String
  | .friendFeed vc => vc.recentItemList
  | page => page.wantedItems ++ page.shownItems.map Item.itemID

/-- The items that the page holds: those that Save lists, and those that it has read or shows. -/
def heldIds (page : Page) : List String :=
  page.itemIds ++ page.readIds

theorem readIds_viewDidLoad (screen : Screen) : screen.viewDidLoad.1.readIds = [] := by
  cases screen <;> rfl

theorem readIds_press (hasButton : page.press userID button = some (pressed, writes)) :
    pressed.readIds = page.readIds := by
  cases press_effect hasButton <;> rfl

section Reads

variable {db : Database} {next : Page} {callback : Callback} {snapshot : Collection}

/-- A read brings items that are listed and items that are stored. -/
theorem readIds_callback
    (listed : ∀ uid itemIds, itemListOf db uid = some itemIds →
      ∀ itemId ∈ itemIds, itemId ∈ storedItems db)
    (taken : Store.IsSnapshot snapshot (db callback.node))
    (ran : page.callback userID snapshot callback = some next) {itemId : String}
    (itemId_mem : itemId ∈ next.readIds) : itemId ∈ page.readIds ∨ itemId ∈ storedItems db := by
  have loaded : itemId ∈ next.wantedItems → itemId ∈ page.wantedItems ∨ itemId ∈ storedItems db := by
    intro isWanted
    rcases wantedItems_callback taken ran with same | ⟨uid, _, hasItems⟩
    · exact Or.inl (same ▸ isWanted)
    · exact Or.inr (listed uid _ hasItems itemId isWanted)
  have shown : itemId ∈ next.shownItems.map Item.itemID →
      itemId ∈ page.shownItems.map Item.itemID ∨ itemId ∈ storedItems db := by
    intro isShown
    rcases shownItems_callback ran with same | ⟨readsItems, read⟩
    · exact Or.inl (same ▸ isShown)
    · rcases stored_of_readItems (readsItems ▸ taken) read with same | allStored
      · exact Or.inl (same ▸ isShown)
      · rcases List.mem_map.mp isShown with ⟨item, item_mem, rfl⟩
        rcases (allStored item item_mem).2 with ⟨record, isRecord, _⟩
        exact Or.inr (Option.isSome_of_mem isRecord)
  have both : itemId ∈ next.wantedItems ++ next.shownItems.map Item.itemID →
      itemId ∈ page.wantedItems ++ page.shownItems.map Item.itemID ∨ itemId ∈ storedItems db := by
    rw [List.mem_append, List.mem_append]
    rintro (isWanted | isShown)
    · exact (loaded isWanted).imp_left Or.inl
    · exact (shown isShown).imp_left Or.inr
  cases callback_effect ran with
  | feedFriends own => exact Or.inl itemId_mem
  | @feedNames vc after read =>
      rcases FriendFeedVC.getFriendNamesAndRecentItemIDs_cases read with rfl | ⟨present, _⟩
      · exact Or.inl itemId_mem
      · rcases FriendFeedVC.columns_of_getFriendNamesAndRecentItemIDs taken present read with
          ⟨_, _, _, latest⟩
        have isLatest : some itemId ∈ after.recentItemList.map some :=
          List.mem_map_of_mem itemId_mem
        rw [latest] at isLatest
        rcases List.mem_map.mp isLatest with ⟨uid, _, ofUser⟩
        rcases exists_itemListOf_of_latestItem ofUser with ⟨itemIds, hasItems, inList⟩
        exact Or.inr (listed uid itemIds hasItems itemId inList)
  | feedItems read =>
      rcases FriendFeedVC.getRecentItemNames_cases read with rfl | ⟨_, names, _, rfl⟩ <;>
        exact Or.inl itemId_mem
  | ignored isForeign => exact Or.inl itemId_mem
  | _ => exact both itemId_mem

end Reads

end Page

theorem supplied_signUpWrites (present : Set String)
    (uid newItemId userName userEmail : String) :
    Outbox.Supplied Write.provides Write.requires present
      (signUpWrites uid newItemId userName userEmail) := by
  refine .cons ?_ (.cons ?_ (.cons ?_ (.cons ?_ .nil)))
  · simp [Write.requires, Write.itemListWritten]
  · simp [Write.requires, Write.itemListWritten]
  · simp [Write.requires, Write.itemListWritten]
  · rintro itemId ⟨owner, itemIds, written, itemId_mem⟩
    simp only [Write.itemListWritten, Option.some.injEq, Prod.mk.injEq] at written
    rcases written with ⟨_, rfl⟩
    -- the sample item was issued three writes earlier
    rw [List.mem_singleton.mp itemId_mem]
    exact Or.inl (Or.inl (Or.inr ⟨_, rfl⟩))

namespace App

variable {normalized : String → String} {s next : App} {event : Event}

/-! ## What a step issues, and where pages come from -/

/-- The writes that a step issues on a client: those of a sign-up with a new key, or of a press on
a page of the client, whoever the current user is. -/
inductive Issues (s next : App) : Nat → List Write → Prop where
  | signUp {client : Nat} {uid newItemId userName userEmail : String} (fresh : newItemId ∉ s.keys)
      (used : newItemId ∈ next.keys) :
      Issues s next client (signUpWrites uid newItemId userName userEmail)
  | press {page : Nat} {opened : OpenPage} {userID : String} {button : Button} {after : Page}
      {writes : List Write} (isRunning : s.running page = some opened)
      (hasButton : opened.page.press userID button = some (after, writes))
      (fresh : ∀ key ∈ button.newKey, key ∉ s.keys ∧ key ∈ next.keys) :
      Issues s next opened.client writes

/-- What a step does to the database and to the writes that wait. -/
inductive OutboxEffect (s : App) (event : Event) (next : App) : Prop where
  | quiet (sameDb : next.db = s.db) (sameQueue : next.queue = s.queue)
  | issued (client : Nat) (writes : List Write) (issues : s.Issues next client writes)
      (sameDb : next.db = s.db)
      (extended : next.queue = Function.update s.queue client (s.queue client ++ writes))
  | persisted (client : Nat) (write : Write) (rest : List Write)
      (queued : s.queue client = write :: rest) (applied : next.db = write.apply s.db)
      (shortened : next.queue = Function.update s.queue client rest)
  | stopped (client : Nat) (isEvent : event = .stop client) (sameDb : next.db = s.db)
      (emptied : next.queue = Function.update s.queue client [])

theorem outboxEffect_step (stepped : s.step normalized event = some next) :
    OutboxEffect s event next := by
  cases effect_step stepped with
  | createdUser client index before after request uid newItemId userName userEmail _ _ _ _ _ fresh
      isNext =>
      subst isNext
      exact .issued client _ (.signUp fresh List.mem_cons_self) rfl rfl
  | pressed page opened userID button after writes _ isRunning _ hasButton fresh isNext =>
      subst isNext
      refine .issued opened.client writes (.press isRunning hasButton ?_) rfl rfl
      intro key isNew
      exact ⟨fresh key isNew, List.mem_append_left _ (Option.mem_toList.mpr isNew)⟩
  | persisted client write rest _ queued isNext =>
      subst isNext
      exact .persisted client write rest queued rfl rfl
  | stopped client isEvent isNext =>
      subst isNext
      exact .stopped client isEvent rfl rfl
  | _ =>
      rename_i isNext
      subst isNext
      exact .quiet rfl rfl

/-- How an open page of the next state arises. -/
inductive PageOrigin (s next : App) (found : OpenPage) : Prop where
  | kept (page : Nat) (opened : OpenPage) (isPage : s.pages page = some opened)
      (sameClient : found.client = opened.client) (samePage : found.page = opened.page)
      (stillRunning : found.status = .running → opened.status = .running)
  | opened (screen : Screen) (isNew : found.page = screen.viewDidLoad.1)
  | delivered (page : Nat) (opened : OpenPage) (isRunning : s.running page = some opened)
      (callback : Callback) (userID : String) (snapshot : Collection)
      (taken : Store.IsSnapshot snapshot (s.db callback.node))
      (sameClient : found.client = opened.client)
      (ran : opened.page.callback userID snapshot callback = some found.page)
  | pressed (page : Nat) (opened : OpenPage) (isRunning : s.running page = some opened)
      (userID : String) (button : Button) (writes : List Write)
      (sameClient : found.client = opened.client)
      (hasButton : opened.page.press userID button = some (found.page, writes))
      (fresh : ∀ key ∈ button.newKey, key ∉ s.keys ∧ key ∈ next.keys)
      (sameDb : next.db = s.db)
      (issued : next.queue opened.client = s.queue opened.client ++ writes)

theorem pageOrigin_step (stepped : s.step normalized event = some next) {page : Nat}
    {found : OpenPage} (isPage : next.pages page = some found) : PageOrigin s next found := by
  cases effect_step stepped with
  | opened other client screen userID _ _ _ _ isNext =>
      subst isNext
      rcases pages_setPage isPage with ⟨rfl, rfl⟩ | old
      · exact .opened screen rfl
      · exact .kept page found old rfl rfl id
  | appeared other opened userID _ isRunning _ isNext =>
      subst isNext
      rcases pages_setPage isPage with ⟨rfl, rfl⟩ | old
      · exact .kept page opened (running_eq_some_iff.mp isRunning).1 rfl rfl id
      · exact .kept page found old rfl rfl id
  | delivered other opened callback userID snapshot _ isRunning _ taken isNext =>
      subst isNext
      rcases pages_setPage isPage with ⟨rfl, rfl⟩ | old
      · cases ran : opened.page.callback userID snapshot callback with
        | none =>
            refine .kept page opened (running_eq_some_iff.mp isRunning).1 (client_deliver _ _ _ _)
              ?_ ?_ <;> simp [OpenPage.deliver, ran]
        | some after =>
            refine .delivered page opened isRunning callback userID snapshot taken
              (client_deliver _ _ _ _) ?_
            simp [OpenPage.deliver, ran]
      · exact .kept page found old rfl rfl id
  | pressed other opened userID button after writes _ isRunning _ hasButton fresh isNext =>
      subst isNext
      rcases pages_setPage isPage with ⟨rfl, rfl⟩ | old
      · refine .pressed page opened isRunning userID button writes rfl hasButton ?_ rfl ?_
        · intro key isNew
          exact ⟨fresh key isNew, List.mem_append_left _ (Option.mem_toList.mpr isNew)⟩
        · simp [setPage, issue]
      · exact .kept page found old rfl rfl id
  | stopped client _ isNext =>
      subst isNext
      rcases Option.map_eq_some_iff.mp isPage with ⟨opened, wasPage, rfl⟩
      unfold OpenPage.stop
      split_ifs
      · exact .kept page opened wasPage rfl rfl (by simp)
      · exact .kept page opened wasPage rfl rfl id
  | _ =>
      rename_i isNext
      subst isNext
      exact .kept page found isPage rfl rfl id

/-! ## Items -/

/-- What waits is well formed, and new items have unused keys. -/
structure ItemsKept (s : App) : Prop where
  wellFormed : ∀ client, ∀ write ∈ s.queue client, write.WellFormed
  fresh : Outbox.Fresh (fun write => write.itemWritten.map Prod.fst) {key | key ∈ s.keys}
    (storedItems s.db) s.queue
  complete : System.ItemsComplete s.db

theorem itemsKept_initial : ({} : App).ItemsKept where
  wellFormed := by simp
  fresh := by constructor <;> simp [storedItems, itemRecord, Outbox.created]
  complete := by simp [System.ItemsComplete, itemRecord]

theorem wellFormed_issued {client : Nat} {writes : List Write}
    (issues : s.Issues next client writes) :
    ∀ write ∈ writes, write.WellFormed := by
  cases issues with
  | signUp _ _ => exact wellFormed_signUpWrites _ _ _ _
  | press _ hasButton _ => exact Page.wellFormed_press hasButton

theorem itemIdsWritten_issued {client : Nat} {writes : List Write}
    (issues : s.Issues next client writes) :
    (itemIdsWritten writes).Nodup ∧
      ∀ itemId ∈ itemIdsWritten writes, itemId ∉ s.keys ∧ itemId ∈ next.keys := by
  cases issues with
  | @signUp _ uid newItemId userName userEmail fresh used =>
      have written : itemIdsWritten (signUpWrites uid newItemId userName userEmail) =
          [newItemId] := rfl
      rw [written]
      refine ⟨List.nodup_singleton newItemId, ?_⟩
      intro itemId itemId_mem
      rw [List.mem_singleton.mp itemId_mem]
      exact ⟨fresh, used⟩
  | @press _ _ _ button _ _ _ hasButton fresh =>
      rw [Page.itemIdsWritten_press hasButton]
      refine ⟨?_, fun itemId itemId_mem => fresh itemId (Option.mem_toList.mp itemId_mem)⟩
      cases button.newKey <;> simp

theorem wellFormed_step (wellFormed : ∀ client, ∀ write ∈ s.queue client, write.WellFormed)
    (stepped : s.step normalized event = some next) (client : Nat) (write : Write)
    (waiting : write ∈ next.queue client) : write.WellFormed := by
  rcases outboxEffect_step stepped with ⟨_, sameQueue⟩ | ⟨issuer, writes, issues, _, extended⟩ |
    ⟨issuer, first, rest, queued, _, shortened⟩ | ⟨issuer, _, _, emptied⟩
  · exact wellFormed client write (sameQueue ▸ waiting)
  · rw [extended, Function.update_apply] at waiting
    split_ifs at waiting with same
    · rcases List.mem_append.mp waiting with old | issued
      · exact wellFormed issuer write old
      · exact wellFormed_issued issues write issued
    · exact wellFormed client write waiting
  · rw [shortened, Function.update_apply] at waiting
    split_ifs at waiting with same
    · exact wellFormed issuer write (by simp [queued, waiting])
    · exact wellFormed client write waiting
  · rcases Outbox.dropped_of_emptied emptied client with same | empty
    · exact wellFormed client write (same ▸ waiting)
    · simp [empty] at waiting

theorem fresh_step (kept : s.ItemsKept) (stepped : s.step normalized event = some next) :
    Outbox.Fresh (fun write => write.itemWritten.map Prod.fst) {key | key ∈ next.keys}
      (storedItems next.db) next.queue := by
  have keys := (keys_step stepped).1
  rcases outboxEffect_step stepped with ⟨sameDb, sameQueue⟩ |
    ⟨issuer, writes, issues, sameDb, extended⟩ | ⟨issuer, write, rest, queued, applied, shortened⟩ |
    ⟨issuer, _, sameDb, emptied⟩
  · rw [sameDb]
    exact kept.fresh.dropped keys fun client => Or.inl (congrFun sameQueue client)
  · rw [sameDb]
    rcases itemIdsWritten_issued issues with ⟨nodup, isNew⟩
    exact kept.fresh.issued keys isNew nodup extended
  · refine kept.fresh.persisted keys queued ?_ shortened
    intro itemId isStored
    rw [applied, storedItems_apply] at isStored
    exact isStored.imp_right mem_provides_iff.mp
  · rw [sameDb]
    exact kept.fresh.dropped keys (Outbox.dropped_of_emptied emptied)

/-- No step changes or removes an entry of `items`, and all entries stay complete. -/
theorem itemRecord_step (kept : s.ItemsKept) (stepped : s.step normalized event = some next) :
    (∀ itemId item, itemRecord s.db itemId = some item → itemRecord next.db itemId = some item) ∧
      System.ItemsComplete next.db := by
  rcases db_step stepped with same | ⟨client, write, rest, _, queued, applied⟩
  · rw [same]
    exact ⟨fun _ _ stored => stored, kept.complete⟩
  · have waiting : write ∈ s.queue client := by simp [queued]
    simp only [System.ItemsComplete, applied, itemRecord_apply]
    cases write with
    | setItem newItemId itemAttr =>
        -- the key of the new item is not stored yet
        have unused : newItemId ∉ storedItems s.db :=
          kept.fresh.absent client newItemId (by simp [queued, Outbox.created, Write.itemWritten])
        refine ⟨?_, ?_⟩
        · intro itemId item stored
          have differ : itemId ≠ newItemId := by
            rintro rfl
            exact unused (by simp [storedItems, stored])
          simpa [differ] using stored
        · intro itemId item stored
          simp only at stored
          split_ifs at stored
          · rw [← Option.some.inj stored]
            exact kept.wellFormed client _ waiting
          · exact kept.complete itemId item stored
    | _ => exact ⟨fun _ _ stored => stored, kept.complete⟩

theorem itemsKept_step (kept : s.ItemsKept) (stepped : s.step normalized event = some next) :
    next.ItemsKept where
  wellFormed := wellFormed_step kept.wellFormed stepped
  fresh := fresh_step kept stepped
  complete := (itemRecord_step kept stepped).2

theorem itemsKept_run {events : List Event}
    (reached : Machine.run (step normalized) {} events = some s) : s.ItemsKept :=
  Machine.invariant_run (fun _ _ _ => itemsKept_step) itemsKept_initial reached

/-- Every item of a list is stored, or waits on the client of the list to be stored before it. -/
structure ListsSupplied (s : App) : Prop where
  stored : ∀ uid itemIds, itemListOf s.db uid = some itemIds →
    ∀ itemId ∈ itemIds, itemId ∈ storedItems s.db
  queued : ∀ client,
    Outbox.Supplied Write.provides Write.requires (storedItems s.db) (s.queue client)
  onPage : ∀ page opened, s.running page = some opened → ∀ itemId ∈ opened.page.itemIds,
    itemId ∈ Outbox.available Write.provides (storedItems s.db) (s.queue opened.client)

theorem listsSupplied_initial : ({} : App).ListsSupplied where
  stored := by simp [itemListOf, userRecord]
  queued _ := .nil
  onPage := by simp [running]

theorem storedItems_subset_step (stepped : s.step normalized event = some next) :
    storedItems s.db ⊆ storedItems next.db := by
  rcases db_step stepped with same | ⟨_, write, _, _, _, applied⟩
  · rw [same]
  · rw [applied]
    exact storedItems_subset_apply s.db write

/-- What a client can rely on only grows, unless its app stops. -/
theorem available_step (stepped : s.step normalized event = some next) {client : Nat}
    (goesOn : event ≠ .stop client) :
    Outbox.available Write.provides (storedItems s.db) (s.queue client) ⊆
      Outbox.available Write.provides (storedItems next.db) (next.queue client) := by
  rcases outboxEffect_step stepped with ⟨sameDb, sameQueue⟩ |
    ⟨issuer, writes, _, sameDb, extended⟩ | ⟨issuer, write, rest, queued, applied, shortened⟩ |
    ⟨issuer, isEvent, sameDb, emptied⟩
  · rw [sameDb, sameQueue]
  · rw [sameDb, extended]
    by_cases same : client = issuer
    · subst same
      rw [Function.update_self]
      exact Outbox.available_subset_append
    · rw [Function.update_of_ne same]
  · rw [shortened]
    by_cases same : client = issuer
    · subst same
      rw [Function.update_self, queued, Outbox.available_cons, applied, storedItems_apply]
    · rw [Function.update_of_ne same]
      exact Outbox.available_mono (storedItems_subset_step stepped)
  · have differ : client ≠ issuer := by
      rintro rfl
      exact goesOn isEvent
    rw [sameDb, emptied, Function.update_of_ne differ]

theorem supplied_step (lists : s.ListsSupplied) (stepped : s.step normalized event = some next)
    (client : Nat) :
    Outbox.Supplied Write.provides Write.requires (storedItems next.db) (next.queue client) := by
  rcases outboxEffect_step stepped with ⟨sameDb, sameQueue⟩ |
    ⟨issuer, writes, issues, sameDb, extended⟩ | ⟨issuer, write, rest, queued, applied, shortened⟩ |
    ⟨issuer, _, sameDb, emptied⟩
  · rw [sameDb, sameQueue]
    exact lists.queued client
  · rw [sameDb]
    refine Outbox.supplied_issued lists.queued ?_ extended client
    cases issues with
    | signUp _ _ => exact supplied_signUpWrites _ _ _ _ _
    | press isRunning hasButton _ =>
        exact (Page.supplied_press hasButton (lists.onPage _ _ isRunning)).1
  · rw [applied, storedItems_apply]
    exact Outbox.supplied_persisted lists.queued queued (Set.Subset.refl _) shortened client
  · rw [sameDb]
    exact Outbox.supplied_dropped lists.queued (Outbox.dropped_of_emptied emptied) client

theorem listed_step (kept : s.ItemsKept) (lists : s.ListsSupplied)
    (stepped : s.step normalized event = some next) (uid : String) (itemIds : List String)
    (stored : itemListOf next.db uid = some itemIds) :
    ∀ itemId ∈ itemIds, itemId ∈ storedItems next.db := by
  intro itemId itemId_mem
  apply storedItems_subset_step stepped
  rcases db_step stepped with same | ⟨client, write, rest, _, queued, applied⟩
  · exact lists.stored uid itemIds (same ▸ stored) itemId itemId_mem
  · rw [applied] at stored
    rcases itemListOf_apply_cases (kept.wellFormed client write (by simp [queued])) stored with
      old | written
    · exact lists.stored uid itemIds old itemId itemId_mem
    · -- the front of an outbox has everything it refers to
      have supplied := lists.queued client
      rw [queued, Outbox.supplied_cons_iff] at supplied
      exact supplied.1 ⟨uid, itemIds, written, itemId_mem⟩

theorem ne_stop_of_running (stepped : s.step normalized event = some next) {page : Nat}
    {found : OpenPage} (isRunning : next.running page = some found) :
    event ≠ .stop found.client := by
  rintro rfl
  simp only [step, Option.some.injEq] at stepped
  subst stepped
  rcases running_eq_some_iff.mp isRunning with ⟨isPage, runs⟩
  rcases Option.map_eq_some_iff.mp isPage with ⟨opened, _, stops⟩
  unfold OpenPage.stop at stops
  split_ifs at stops with same
  · subst stops
    simp at runs
  · subst stops
    exact same ⟨rfl, runs⟩

/-- A page finds its items on its client, whichever account they were read or issued for. -/
theorem onPage_step (lists : s.ListsSupplied) (stepped : s.step normalized event = some next)
    (page : Nat) (found : OpenPage) (isRunning : next.running page = some found) :
    ∀ itemId ∈ found.page.itemIds,
      itemId ∈ Outbox.available Write.provides (storedItems next.db) (next.queue found.client) := by
  intro itemId itemId_mem
  have grows := available_step stepped (ne_stop_of_running stepped isRunning)
  rcases running_eq_some_iff.mp isRunning with ⟨isPage, runs⟩
  rcases pageOrigin_step stepped isPage with
    ⟨other, opened, wasPage, sameClient, samePage, stillRunning⟩ | ⟨screen, isNew⟩ |
    ⟨other, opened, wasRunning, callback, userID, snapshot, taken, sameClient, ran⟩ |
    ⟨other, opened, wasRunning, userID, button, writes, sameClient, hasButton, _, sameDb, issued⟩
  · apply grows
    rw [samePage] at itemId_mem
    rw [sameClient]
    exact lists.onPage other opened (running_eq_some_iff.mpr ⟨wasPage, stillRunning runs⟩) itemId
      itemId_mem
  · rw [isNew, (Page.lists_viewDidLoad screen).1] at itemId_mem
    simp at itemId_mem
  · apply grows
    rcases Page.itemIds_callback ran with same | ⟨isUsers, user, isUser, list⟩
    · rw [sameClient]
      exact lists.onPage other opened wasRunning itemId (same ▸ itemId_mem)
    · rw [taken.lookup, isUsers] at isUser
      refine Outbox.subset_available (lists.stored userID found.page.itemIds ?_ itemId itemId_mem)
      rw [itemListOf, userRecord, isUser, Option.bind_some, list]
  · rw [sameClient, issued, sameDb, Outbox.available_append]
    exact (Page.supplied_press hasButton (lists.onPage other opened wasRunning)).2 itemId itemId_mem

theorem listsSupplied_run {events : List Event}
    (reached : Machine.run (step normalized) {} events = some s) : s.ListsSupplied := by
  refine Machine.run_induction (motive := fun _ s => s.ListsSupplied) listsSupplied_initial ?_
    reached
  intro events state event next toState lists stepped
  exact {
    stored := listed_step (itemsKept_run toState) lists stepped
    queued := supplied_step lists stepped
    onPage := onPage_step lists stepped }

/-- The items that open pages have read are stored. -/
def ReadsStored (s : App) : Prop :=
  ∀ page opened, s.pages page = some opened → ∀ itemId ∈ opened.page.readIds,
    itemId ∈ storedItems s.db

theorem readsStored_step (lists : s.ListsSupplied) (reads : s.ReadsStored)
    (stepped : s.step normalized event = some next) : next.ReadsStored := by
  intro page found isPage itemId itemId_mem
  apply storedItems_subset_step stepped
  rcases pageOrigin_step stepped isPage with
    ⟨other, opened, wasPage, _, samePage, _⟩ | ⟨screen, isNew⟩ |
    ⟨other, opened, wasRunning, callback, userID, snapshot, taken, _, ran⟩ |
    ⟨other, opened, wasRunning, userID, button, writes, _, hasButton, _, _, _⟩
  · exact reads other opened wasPage itemId (samePage ▸ itemId_mem)
  · rw [isNew, Page.readIds_viewDidLoad] at itemId_mem
    simp at itemId_mem
  · rcases Page.readIds_callback lists.stored taken ran itemId_mem with old | stored
    · exact reads other opened (running_eq_some_iff.mp wasRunning).1 itemId old
    · exact stored
  · rw [Page.readIds_press hasButton] at itemId_mem
    exact reads other opened (running_eq_some_iff.mp wasRunning).1 itemId itemId_mem

theorem readsStored_run {events : List Event}
    (reached : Machine.run (step normalized) {} events = some s) : s.ReadsStored := by
  refine Machine.run_induction (motive := fun _ s => s.ReadsStored) (by simp [ReadsStored]) ?_
    reached
  intro events state event next toState reads stepped
  exact readsStored_step (listsSupplied_run toState) reads stepped

/-! ## Ids in lists -/

/-- No copy of a list holds an id twice, and item lists hold used keys. -/
structure ListsNodup (s : App) : Prop where
  stored : ∀ uid itemIds, itemListOf s.db uid = some itemIds → itemIds.Nodup ∧ itemIds ⊆ s.keys
  queued : ∀ client, ∀ write ∈ s.queue client, ∀ uid itemIds,
    write.itemListWritten = some (uid, itemIds) → itemIds.Nodup ∧ itemIds ⊆ s.keys
  onPage : ∀ page opened, s.pages page = some opened →
    opened.page.itemIds.Nodup ∧ opened.page.itemIds ⊆ s.keys
  friendsStored : ∀ uid friends, friendListOf s.db uid = some friends → friends.Nodup
  friendsQueued : ∀ client, ∀ write ∈ s.queue client, ∀ uid friends,
    write.friendListWritten = some (uid, friends) → friends.Nodup
  friendsOnPage : ∀ page opened, s.pages page = some opened → opened.page.friends.Nodup

theorem listsNodup_initial : ({} : App).ListsNodup := by
  constructor <;> simp [itemListOf, friendListOf, userRecord]

/-- A page that appends a new key to its list holds no key twice. -/
theorem nodup_append_of_fresh {list : List String} {key : String}
    (nodup : list.Nodup ∧ list ⊆ s.keys) (grows : s.keys ⊆ next.keys)
    (fresh : key ∉ s.keys ∧ key ∈ next.keys) :
    (list ++ [key]).Nodup ∧ (list ++ [key]) ⊆ next.keys := by
  refine ⟨System.nodup_concat_of_subset nodup.1 nodup.2 fresh.1, ?_⟩
  exact List.append_subset.mpr ⟨List.Subset.trans nodup.2 grows, by simpa using fresh.2⟩

/-- Save and Follow write a list of their page with an id that is not in it. -/
theorem lists_issued (lists : s.ListsNodup) (grows : s.keys ⊆ next.keys) {client : Nat}
    {writes : List Write} (issues : s.Issues next client writes) {write : Write}
    (issued : write ∈ writes) :
    (∀ uid itemIds, write.itemListWritten = some (uid, itemIds) →
        itemIds.Nodup ∧ itemIds ⊆ next.keys) ∧
      ∀ uid friends, write.friendListWritten = some (uid, friends) → friends.Nodup := by
  cases issues with
  | signUp fresh used =>
      simp only [signUpWrites, List.mem_cons, List.not_mem_nil, or_false] at issued
      rcases issued with rfl | rfl | rfl | rfl <;>
        simp [Write.itemListWritten, Write.friendListWritten, used]
  | @press page opened userID button after writes isRunning hasButton fresh =>
      have isPage := (running_eq_some_iff.mp isRunning).1
      cases button with
      | save form newItemId =>
          rcases (Page.press_save hasButton).2.2 with ⟨itemAttr, _, rfl⟩
          have appended := nodup_append_of_fresh (lists.onPage page opened isPage) grows
            (fresh newItemId rfl)
          simp only [List.mem_cons, List.not_mem_nil, or_false] at issued
          rcases issued with rfl | rfl
          · simp [Write.itemListWritten, Write.friendListWritten]
          · refine ⟨?_, by simp [Write.friendListWritten]⟩
            intro uid itemIds written
            simp only [Write.itemListWritten, Option.some.injEq, Prod.mk.injEq] at written
            rw [← written.2]
            exact appended
      | follow =>
          rcases (Page.press_follow hasButton).2.2 with ⟨_, _, rfl⟩ | ⟨unlisted, _, rfl⟩
          · simp at issued
          · rw [List.mem_singleton.mp issued]
            refine ⟨by simp [Write.itemListWritten], ?_⟩
            intro uid friends written
            simp only [Write.friendListWritten, Option.some.injEq, Prod.mk.injEq] at written
            rw [← written.2, ← List.concat_eq_append]
            exact (lists.friendsOnPage page opened isPage).concat unlisted

theorem listsQueued_step (lists : s.ListsNodup) (stepped : s.step normalized event = some next)
    (client : Nat) (write : Write) (waiting : write ∈ next.queue client) :
    (∀ uid itemIds, write.itemListWritten = some (uid, itemIds) →
        itemIds.Nodup ∧ itemIds ⊆ next.keys) ∧
      ∀ uid friends, write.friendListWritten = some (uid, friends) → friends.Nodup := by
  have grows := (keys_step stepped).1
  have kept : ∀ {other}, write ∈ s.queue other →
      (∀ uid itemIds, write.itemListWritten = some (uid, itemIds) →
        itemIds.Nodup ∧ itemIds ⊆ next.keys) ∧
      ∀ uid friends, write.friendListWritten = some (uid, friends) → friends.Nodup := by
    intro other old
    refine ⟨?_, lists.friendsQueued other write old⟩
    intro uid itemIds written
    exact (lists.queued other write old uid itemIds written).imp_right
      (List.Subset.trans · grows)
  rcases outboxEffect_step stepped with ⟨_, sameQueue⟩ | ⟨issuer, writes, issues, _, extended⟩ |
    ⟨issuer, first, rest, queued, _, shortened⟩ | ⟨issuer, _, _, emptied⟩
  · exact kept (sameQueue ▸ waiting)
  · rw [extended, Function.update_apply] at waiting
    split_ifs at waiting
    · rcases List.mem_append.mp waiting with old | issued
      · exact kept old
      · exact lists_issued lists grows issues issued
    · exact kept waiting
  · rw [shortened, Function.update_apply] at waiting
    split_ifs at waiting with same
    · subst same
      exact kept (show write ∈ s.queue client by simp [queued, waiting])
    · exact kept waiting
  · rcases Outbox.dropped_of_emptied emptied client with same | empty
    · exact kept (same ▸ waiting)
    · simp [empty] at waiting

theorem listsOnPage_step (lists : s.ListsNodup) (stepped : s.step normalized event = some next)
    {page : Nat} {found : OpenPage} (isPage : next.pages page = some found) :
    (found.page.itemIds.Nodup ∧ found.page.itemIds ⊆ next.keys) ∧ found.page.friends.Nodup := by
  have grows := (keys_step stepped).1
  have kept : ∀ {other opened}, s.pages other = some opened →
      opened.page.itemIds.Nodup ∧ opened.page.itemIds ⊆ next.keys := by
    intro other opened wasPage
    exact (lists.onPage other opened wasPage).imp_right (List.Subset.trans · grows)
  rcases pageOrigin_step stepped isPage with
    ⟨other, opened, wasPage, _, samePage, _⟩ | ⟨screen, isNew⟩ |
    ⟨other, opened, wasRunning, callback, userID, snapshot, taken, _, ran⟩ |
    ⟨other, opened, wasRunning, userID, button, writes, _, hasButton, fresh, _, _⟩
  · rw [samePage]
    exact ⟨kept wasPage, lists.friendsOnPage other opened wasPage⟩
  · rw [isNew, (Page.lists_viewDidLoad screen).1, (Page.lists_viewDidLoad screen).2]
    exact ⟨⟨List.nodup_nil, List.nil_subset _⟩, List.nodup_nil⟩
  · have wasPage := (running_eq_some_iff.mp wasRunning).1
    constructor
    · rcases Page.itemIds_callback ran with same | ⟨isUsers, user, isUser, list⟩
      · rw [same]
        exact kept wasPage
      · rw [taken.lookup, isUsers] at isUser
        have stored : itemListOf s.db userID = some found.page.itemIds := by
          rw [itemListOf, userRecord, isUser, Option.bind_some, list]
        exact (lists.stored userID _ stored).imp_right (List.Subset.trans · grows)
    · rcases Page.friends_callback ran with same | ⟨isUsers, uid, user, isUser, _, list⟩
      · rw [same]
        exact lists.friendsOnPage other opened wasPage
      · rw [taken.lookup, isUsers] at isUser
        refine lists.friendsStored uid _ ?_
        rw [friendListOf, userRecord, isUser, Option.bind_some, list]
  · have wasPage := (running_eq_some_iff.mp wasRunning).1
    cases button with
    | save form newItemId =>
        rw [(Page.press_save hasButton).1, (Page.press_save hasButton).2.1]
        exact ⟨nodup_append_of_fresh (lists.onPage other opened wasPage) grows
          (fresh newItemId rfl), lists.friendsOnPage other opened wasPage⟩
    | follow =>
        rw [(Page.press_follow hasButton).1]
        refine ⟨kept wasPage, ?_⟩
        rcases (Page.press_follow hasButton).2.2 with ⟨_, same, _⟩ | ⟨unlisted, extended, _⟩
        · rw [same]
          exact lists.friendsOnPage other opened wasPage
        · rw [extended, ← List.concat_eq_append]
          exact (lists.friendsOnPage other opened wasPage).concat unlisted

theorem listsNodup_step (kept : s.ItemsKept) (lists : s.ListsNodup)
    (stepped : s.step normalized event = some next) : next.ListsNodup where
  stored := by
    intro uid itemIds stored
    suffices nodup : itemIds.Nodup ∧ itemIds ⊆ s.keys from
      nodup.imp_right (List.Subset.trans · (keys_step stepped).1)
    rcases db_step stepped with same | ⟨client, write, rest, _, queued, applied⟩
    · exact lists.stored uid itemIds (same ▸ stored)
    · have waiting : write ∈ s.queue client := by simp [queued]
      rw [applied] at stored
      rcases itemListOf_apply_cases (kept.wellFormed client write waiting) stored with
        old | written
      · exact lists.stored uid itemIds old
      · exact lists.queued client write waiting uid itemIds written
  queued client write waiting := (listsQueued_step lists stepped client write waiting).1
  onPage _ _ isPage := (listsOnPage_step lists stepped isPage).1
  friendsStored := by
    intro uid friends stored
    rcases db_step stepped with same | ⟨client, write, rest, _, queued, applied⟩
    · exact lists.friendsStored uid friends (same ▸ stored)
    · have waiting : write ∈ s.queue client := by simp [queued]
      rw [applied] at stored
      rcases friendListOf_apply_cases (kept.wellFormed client write waiting) stored with
        old | written
      · exact lists.friendsStored uid friends old
      · exact lists.friendsQueued client write waiting uid friends written
  friendsQueued client write waiting := (listsQueued_step lists stepped client write waiting).2
  friendsOnPage _ _ isPage := (listsOnPage_step lists stepped isPage).2

theorem listsNodup_run {events : List Event}
    (reached : Machine.run (step normalized) {} events = some s) : s.ListsNodup := by
  refine Machine.run_induction (motive := fun _ s => s.ListsNodup) listsNodup_initial ?_ reached
  intro events state event next toState lists stepped
  exact listsNodup_step (itemsKept_run toState) lists stepped

theorem itemRecord_run {first second : List Event} {middle : App}
    (toMiddle : Machine.run (step normalized) {} first = some middle)
    (reached : Machine.run (step normalized) middle second = some s) {itemId : String}
    {item : Record} (stored : itemRecord middle.db itemId = some item) :
    itemRecord s.db itemId = some item := by
  refine Machine.run_induction (motive := fun _ s => itemRecord s.db itemId = some item) stored ?_
    reached
  intro events state event next toState holds stepped
  exact (itemRecord_step (itemsKept_run (Machine.run_trans toMiddle toState)) stepped).1 itemId item
    holds

/-- In every run of the app, with answers to log-ins and sign-ups at any time and whatever is open
then, the item store is intact in every state and has kept the entries of every earlier one, no
stored list has an id twice, and every item that an open page holds, to list it or because it has
been read, is stored or waits on its client. -/
theorem itemStore_lateAnswers {first second : List Event} {middle : App}
    (toMiddle : Machine.run (step normalized) {} first = some middle)
    (reached : Machine.run (step normalized) middle second = some s) :
    System.ItemStoreIntact s.db ∧
      (∀ itemId item, itemRecord middle.db itemId = some item →
        itemRecord s.db itemId = some item) ∧
      (∀ uid itemIds, itemListOf s.db uid = some itemIds → itemIds.Nodup) ∧
      (∀ uid friends, friendListOf s.db uid = some friends → friends.Nodup) ∧
      ∀ page opened, s.running page = some opened → ∀ itemId ∈ opened.page.heldIds,
        itemId ∈ storedItems s.db ∨ itemId ∈ itemIdsWritten (s.queue opened.client) := by
  have toState := Machine.run_trans toMiddle reached
  have supplied := listsSupplied_run toState
  have lists := listsNodup_run toState
  refine ⟨⟨?_, (itemsKept_run toState).complete⟩, fun _ _ => itemRecord_run toMiddle reached, ?_,
    lists.friendsStored, ?_⟩
  · intro uid itemIds stored itemId itemId_mem
    rw [Store.mem_keys_iff]
    exact supplied.stored uid itemIds stored itemId itemId_mem
  · intro uid itemIds stored
    exact (lists.stored uid itemIds stored).1
  · intro page opened isRunning itemId itemId_mem
    rcases List.mem_append.mp itemId_mem with toList | hasRead
    · rcases supplied.onPage page opened isRunning itemId toList with
        stored | ⟨write, waiting, item, written⟩
      · exact Or.inl stored
      · refine Or.inr (List.mem_filterMap.mpr ⟨write, waiting, ?_⟩)
        rw [written, Option.map_some]
    · exact Or.inl (readsStored_run toState page opened (running_eq_some_iff.mp isRunning).1 itemId
        hasRead)

/-- After the late answer, Save lists an item of the first user for the second one as well. The item
stays as it is. -/
theorem itemStore_sharedItem :
    let middle := (Machine.run (step id) {} (lateAnswer.take 46)).get (by decide)
    let s := (Machine.run (step id) middle (lateAnswer.drop 46)).get (by decide)
    System.ItemStoreIntact s.db ∧
      (∀ itemId item, itemRecord middle.db itemId = some item →
        itemRecord s.db itemId = some item) ∧
      (∀ uid itemIds, itemListOf s.db uid = some itemIds → itemIds.Nodup) ∧
      (∀ uid friends, friendListOf s.db uid = some friends → friends.Nodup) ∧
      ∀ page opened, s.running page = some opened → ∀ itemId ∈ opened.page.heldIds,
        itemId ∈ storedItems s.db ∨ itemId ∈ itemIdsWritten (s.queue opened.client) :=
  itemStore_lateAnswers (Option.some_get _).symm (Option.some_get _).symm

end App

end PriceTracker
