import PriceTracker.OwnClients
import PriceTracker.ItemPages

/-!
# Other users cannot affect a wishlist

Two runs in which the clients of an account take the same steps, while all other clients do
whatever they like in between, agree on the wishlist of the account: its stored item list is the
same, and its profile pages show the same items, up to the order in which `items` was
enumerated. The proof is by unwinding: a foreign step disturbs nothing that the clients of the
account see, and equal steps of theirs keep what they see equal.
-/

namespace PriceTracker

/-- Pages of the account that differ in the order of the shown items at most. -/
inductive Page.SameUpToOrder : Page → Page → Prop where
  | addEntry (vc : AddEntryVC) : SameUpToOrder (.addEntry vc) (.addEntry vc)
  | profile (vc : ProfileVC) (ItemList : List Item) (same : vc.ItemList.Perm ItemList) :
      SameUpToOrder (.profile vc) (.profile { vc with ItemList })

structure Session.SameUpToOrder (session other : Session) : Prop where
  client : session.client = other.client
  userID : session.userID = other.userID
  pending : session.pending = other.pending
  status : session.status = other.status
  page : session.page.SameUpToOrder other.page

theorem Page.SameUpToOrder.symm {page other : Page} (same : page.SameUpToOrder other) :
    other.SameUpToOrder page := by
  cases same with
  | addEntry vc => exact .addEntry vc
  | profile vc ItemList same => exact .profile { vc with ItemList } vc.ItemList same.symm

theorem Page.SameUpToOrder.viewWillAppear {page other : Page} (same : page.SameUpToOrder other) :
    page.viewWillAppear = other.viewWillAppear := by
  cases same <;> rfl

/-- Save on an entry page does the same on both pages; a profile page has no button. -/
theorem Page.SameUpToOrder.press {page other pressed otherPressed : Page} {userID : String}
    {button : Button} {writes otherWrites : List Write} (same : page.SameUpToOrder other)
    (hasButton : page.press userID button = some (pressed, writes))
    (otherButton : other.press userID button = some (otherPressed, otherWrites)) :
    pressed.SameUpToOrder otherPressed ∧ writes = otherWrites := by
  cases same with
  | addEntry vc =>
      rw [hasButton, Option.some.injEq, Prod.mk.injEq] at otherButton
      rcases otherButton with ⟨rfl, rfl⟩
      cases Page.press_effect hasButton with
      | save => exact ⟨.addEntry _, rfl⟩
  | profile vc ItemList same => cases Page.press_effect hasButton

theorem Session.SameUpToOrder.symm {session other : Session} (same : session.SameUpToOrder other) :
    other.SameUpToOrder session where
  client := same.client.symm
  userID := same.userID.symm
  pending := same.pending.symm
  status := same.status.symm
  page := same.page.symm

@[simp]
theorem Session.client_deliver (session : Session) (callback : Callback) (snapshot : Collection) :
    (session.deliver callback snapshot).client = session.client := by
  unfold deliver
  cases session.page.callback session.userID snapshot callback <;> rfl

namespace System

/-- The session of a page, if it runs on an own client. -/
def ownSession (own : Nat → Bool) (s : System) (page : Nat) : Option Session :=
  (s.sessions page).filter fun session => own session.client

/-- A step that leaves all that the own clients see as it was. -/
structure Undisturbed (own : Nat → Bool) (uid : String) (keys : List String) (s next : System) :
    Prop where
  queues : ∀ client, own client = true → next.queue client = s.queue client
  sessions : ∀ page, next.ownSession own page = s.ownSession own page
  itemList : itemListOf next.db uid = itemListOf s.db uid
  items : ∀ key ∈ keys, itemRecord next.db key = itemRecord s.db key

/-- The own clients see the same in both states, up to the order of the shown items. -/
structure LooksLike (own : Nat → Bool) (uid : String) (keys : List String) (s other : System) :
    Prop where
  queues : ∀ client, own client = true → s.queue client = other.queue client
  sessions : ∀ page, Option.Rel Session.SameUpToOrder (s.ownSession own page)
    (other.ownSession own page)
  itemList : itemListOf s.db uid = itemListOf other.db uid
  items : ∀ key ∈ keys, itemRecord s.db key = itemRecord other.db key

variable {own : Nat → Bool} {uid : String} {keys : List String} {s next other otherNext : System}
  {event : Event} {history : List (System × Event)}

theorem LooksLike.symm (like : s.LooksLike own uid keys other) :
    other.LooksLike own uid keys s where
  queues := fun client isOwn => (like.queues client isOwn).symm
  sessions := by
    intro page
    have same := like.sessions page
    cases found : s.ownSession own page with
    | none =>
        cases otherFound : other.ownSession own page with
        | none => exact .none
        | some session => simp [found, otherFound] at same
    | some session =>
        cases otherFound : other.ownSession own page with
        | none => simp [found, otherFound] at same
        | some otherSession =>
            simp only [found, otherFound, Option.rel_some_some] at same
            exact .some same.symm
  itemList := like.itemList.symm
  items := fun key isOwn => (like.items key isOwn).symm

theorem LooksLike.of_undisturbed (like : s.LooksLike own uid keys other)
    (undisturbed : s.Undisturbed own uid keys next) : next.LooksLike own uid keys other where
  queues := fun client isOwn => by rw [undisturbed.queues client isOwn, like.queues client isOwn]
  sessions := fun page => by
    rw [undisturbed.sessions page]
    exact like.sessions page
  itemList := by rw [undisturbed.itemList, like.itemList]
  items := fun key isOwn => by rw [undisturbed.items key isOwn, like.items key isOwn]

theorem ownSession_of_replaced {page : Nat} {session : Session}
    (replaced : next.sessions = Function.update s.sessions page (some session)) (shown : Nat) :
    next.ownSession own shown =
      if shown = page then (some session).filter fun session => own session.client
      else s.ownSession own shown := by
  rw [ownSession, replaced, Function.update_apply]
  split_ifs
  · rfl
  · rfl

theorem ownSession_eq_some_iff {page : Nat} {session : Session} :
    s.ownSession own page = some session ↔
      s.sessions page = some session ∧ own session.client = true := by
  simp [ownSession, Option.filter_eq_some_iff]

theorem itemRecord_of_unused (fresh : s.NewItemsFresh) {key : String} (unused : key ∉ s.keys) :
    itemRecord s.db key = none := by
  have absent : key ∉ storedItems s.db := fun isStored => unused (fresh.stored key isStored)
  simpa [storedItems] using absent

/-! ## Foreign steps -/

theorem ownSession_of_replaced_foreign {page : Nat} {session : Session}
    (replaced : next.sessions = Function.update s.sessions page (some session))
    (absent : s.ownSession own page = none) (isForeign : own session.client = false) (shown : Nat) :
    next.ownSession own shown = s.ownSession own shown := by
  rw [ownSession_of_replaced replaced]
  split_ifs with same
  · rw [same, absent]
    simp [isForeign]
  · rfl

theorem ownSession_of_foreign {page : Nat} {session : Session}
    (isRunning : s.running page = some session) (isForeign : own session.client = false) :
    s.ownSession own page = none := by
  simp [ownSession, (running_eq_some_iff.mp isRunning).1, isForeign]

theorem ownSession_stop {client : Nat} (stepped : s.step (.stop client) = some next)
    (isForeign : own client = false) (page : Nat) :
    next.ownSession own page = s.ownSession own page := by
  rw [step_stop stepped]
  cases isOpen : s.sessions page with
  | none => simp [ownSession, isOpen]
  | some session =>
      by_cases stops : session.client = client ∧ session.status = .running
      · simp [ownSession, isOpen, Session.stop, stops, Option.filter_some, isForeign]
      · simp [ownSession, isOpen, Session.stop, stops]

/-- A step that no own client takes leaves their pages as they are. -/
theorem ownSession_of_hidden (stepped : s.step event = some next)
    (isHidden : s.ownStep own event = none) (shown : Nat) :
    next.ownSession own shown = s.ownSession own shown := by
  have isForeign : ∀ {page session}, s.running page = some session →
      s.actor event = (s.sessions page).map Session.client → own session.client = false := by
    intro page session isRunning acting
    rw [(running_eq_some_iff.mp isRunning).1] at acting
    exact isForeign_of_hidden isHidden acting
  cases event with
  | signUp client newUid newItemId userName userEmail =>
      rcases step_signUp stepped with ⟨_, _, _, rfl⟩
      rfl
  | viewDidLoad page client userID screen =>
      have foreignClient : own client = false := isForeign_of_hidden isHidden rfl
      rcases step_viewDidLoad stepped with ⟨isNew, _, rfl⟩
      have absent : s.ownSession own page = none := by simp [ownSession, isNew]
      exact ownSession_of_replaced_foreign rfl absent foreignClient shown
  | viewWillAppear page =>
      rcases step_viewWillAppear stepped with ⟨session, isRunning, rfl⟩
      have foreignClient := isForeign isRunning rfl
      refine ownSession_of_replaced_foreign rfl (ownSession_of_foreign isRunning foreignClient) ?_
        shown
      exact foreignClient
  | deliver page callback snapshot =>
      rcases step_deliver stepped with ⟨session, isRunning, _, _, rfl⟩
      have foreignClient := isForeign isRunning rfl
      refine ownSession_of_replaced_foreign rfl (ownSession_of_foreign isRunning foreignClient) ?_
        shown
      rw [Session.client_deliver]
      exact foreignClient
  | press page button =>
      rcases step_press stepped with ⟨session, pressed, writes, isRunning, _, _, rfl⟩
      have foreignClient := isForeign isRunning rfl
      refine ownSession_of_replaced_foreign rfl (ownSession_of_foreign isRunning foreignClient) ?_
        shown
      exact foreignClient
  | persist client =>
      rcases step_persist stepped with ⟨write, rest, _, rfl⟩
      rfl
  | stop client => exact ownSession_stop stepped (isForeign_of_hidden isHidden rfl) shown

/-- A step that no own client takes disturbs nothing that they see. -/
theorem undisturbed_of_hidden (apart : s.Apart own uid keys) (stepped : s.step event = some next)
    (isHidden : s.ownStep own event = none) : s.Undisturbed own uid keys next where
  queues := fun _ isOwn => queue_of_hidden stepped isHidden isOwn
  sessions := ownSession_of_hidden stepped isHidden
  itemList := by
    rcases db_step stepped with same | ⟨client, write, rest, rfl, queued, applied⟩
    · rw [same]
    · rw [applied]
      have isForeign : own client = false := isForeign_of_hidden isHidden rfl
      exact (apart.spared client isForeign write (by simp [queued])).itemListOf s.db
  items := by
    intro key isOwn
    rcases db_step stepped with same | ⟨client, write, rest, rfl, queued, applied⟩
    · rw [same]
    · rw [applied]
      have isForeign : own client = false := isForeign_of_hidden isHidden rfl
      exact (apart.spared client isForeign write (by simp [queued])).itemRecord s.db isOwn

/-! ## Steps of the account -/

/-- An own page is open in both states, and looks the same. -/
theorem LooksLike.exists_session (like : s.LooksLike own uid keys other) {page : Nat}
    {session : Session} (isOpen : s.sessions page = some session)
    (isOwn : own session.client = true) :
    ∃ otherSession, other.sessions page = some otherSession ∧
      session.SameUpToOrder otherSession := by
  have same := like.sessions page
  rw [ownSession_eq_some_iff.mpr ⟨isOpen, isOwn⟩] at same
  cases otherFound : other.ownSession own page with
  | none => simp [otherFound] at same
  | some otherSession =>
      simp only [otherFound, Option.rel_some_some] at same
      exact ⟨otherSession, (ownSession_eq_some_iff.mp otherFound).1, same⟩

theorem LooksLike.sameUpToOrder (like : s.LooksLike own uid keys other) {page : Nat}
    {session otherSession : Session} (isRunning : s.running page = some session)
    (otherRunning : other.running page = some otherSession) (isOwn : own session.client = true) :
    session.SameUpToOrder otherSession := by
  rcases like.exists_session (running_eq_some_iff.mp isRunning).1 isOwn with ⟨found, isFound, same⟩
  rw [(running_eq_some_iff.mp otherRunning).1, Option.some.injEq] at isFound
  exact isFound ▸ same

/-- Keys that are used in neither state have no item in either. -/
theorem LooksLike.with_key (like : s.LooksLike own uid keys other) (fresh : s.NewItemsFresh)
    (otherFresh : other.NewItemsFresh) (taken : List String) (unused : ∀ key ∈ taken, key ∉ s.keys)
    (otherUnused : ∀ key ∈ taken, key ∉ other.keys) :
    s.LooksLike own uid (keys ++ taken) other where
  queues := like.queues
  sessions := like.sessions
  itemList := like.itemList
  items := by
    intro key key_mem
    rcases List.mem_append.mp key_mem with old | isNew
    · exact like.items key old
    · rw [itemRecord_of_unused fresh (unused key isNew),
        itemRecord_of_unused otherFresh (otherUnused key isNew)]

/-- A pair of steps that puts the same session on a page. -/
theorem LooksLike.replaced (like : s.LooksLike own uid keys other) {page : Nat}
    {session otherSession : Session} (same : session.SameUpToOrder otherSession)
    (replaced : next.sessions = Function.update s.sessions page (some session))
    (otherReplaced : otherNext.sessions = Function.update other.sessions page (some otherSession))
    (sameDb : next.db = s.db) (otherSameDb : otherNext.db = other.db)
    (queues : ∀ client, own client = true → next.queue client = otherNext.queue client) :
    next.LooksLike own uid keys otherNext where
  queues := queues
  sessions := by
    intro shown
    rw [ownSession_of_replaced replaced, ownSession_of_replaced otherReplaced]
    split_ifs
    · rw [Option.filter_some, Option.filter_some, same.client]
      split_ifs
      · exact .some same
      · exact .none
    · exact like.sessions shown
  itemList := by
    rw [sameDb, otherSameDb]
    exact like.itemList
  items := by
    rw [sameDb, otherSameDb]
    exact like.items

theorem LooksLike.signUp (like : s.LooksLike own uid keys other) {client : Nat}
    {newUid newItemId userName userEmail : String}
    (stepped : s.step (.signUp client newUid newItemId userName userEmail) = some next)
    (otherStepped : other.step (.signUp client newUid newItemId userName userEmail) =
      some otherNext) : next.LooksLike own uid keys otherNext := by
  rcases step_signUp stepped with ⟨_, _, _, rfl⟩
  rcases step_signUp otherStepped with ⟨_, _, _, rfl⟩
  refine ⟨?_, like.sessions, like.itemList, like.items⟩
  intro shown isOwn
  rw [queue_issue, queue_issue]
  split_ifs with same
  · subst same
    simp only [like.queues shown isOwn]
  · exact like.queues shown isOwn

theorem LooksLike.viewDidLoad (like : s.LooksLike own uid keys other) {page client : Nat}
    {userID : String} {screen : Screen} (isOwn : screen = .addEntry ∨ screen = .profile)
    (stepped : s.step (.viewDidLoad page client userID screen) = some next)
    (otherStepped : other.step (.viewDidLoad page client userID screen) = some otherNext) :
    next.LooksLike own uid keys otherNext := by
  rcases step_viewDidLoad stepped with ⟨_, _, rfl⟩
  rcases step_viewDidLoad otherStepped with ⟨_, _, rfl⟩
  refine like.replaced ⟨rfl, rfl, rfl, rfl, ?_⟩ rfl rfl rfl rfl like.queues
  rcases isOwn with rfl | rfl
  · exact .addEntry {}
  · exact .profile {} [] List.Perm.nil

theorem LooksLike.viewWillAppear (like : s.LooksLike own uid keys other) {page : Nat}
    (isSeen : (s.ownStep own (.viewWillAppear page)).isSome)
    (stepped : s.step (.viewWillAppear page) = some next)
    (otherStepped : other.step (.viewWillAppear page) = some otherNext) :
    next.LooksLike own uid keys otherNext := by
  rcases step_viewWillAppear stepped with ⟨session, isRunning, rfl⟩
  rcases step_viewWillAppear otherStepped with ⟨otherSession, otherRunning, rfl⟩
  have acting : s.actor (.viewWillAppear page) = some session.client := client_of_running isRunning
  have same := like.sameUpToOrder isRunning otherRunning ((isSome_ownStep_iff acting).mp isSeen)
  have samePending : session.pending ++ session.page.viewWillAppear =
      otherSession.pending ++ otherSession.page.viewWillAppear := by
    rw [same.pending, same.page.viewWillAppear]
  refine like.replaced ?_ rfl rfl rfl rfl like.queues
  exact ⟨same.client, same.userID, samePending, same.status, same.page⟩

theorem LooksLike.press (like : s.LooksLike own uid keys other)
    {page : Nat} {button : Button} (isSeen : (s.ownStep own (.press page button)).isSome)
    (stepped : s.step (.press page button) = some next)
    (otherStepped : other.step (.press page button) = some otherNext) :
    next.LooksLike own uid keys otherNext := by
  rcases step_press stepped with ⟨session, pressed, writes, isRunning, hasButton, _, rfl⟩
  rcases step_press otherStepped with
    ⟨otherSession, otherPressed, otherWrites, otherRunning, otherButton, _, rfl⟩
  have acting : s.actor (.press page button) = some session.client := client_of_running isRunning
  have same := like.sameUpToOrder isRunning otherRunning ((isSome_ownStep_iff acting).mp isSeen)
  rw [← same.userID] at otherButton
  rcases same.page.press hasButton otherButton with ⟨samePage, rfl⟩
  refine like.replaced ?_ rfl rfl rfl rfl ?_
  · exact ⟨same.client, same.userID, same.pending, same.status, samePage⟩
  · intro client clientOwn
    rw [queue_issue, queue_issue, same.client]
    split_ifs with isClient
    · subst isClient
      simp only [setSession, like.queues _ clientOwn]
    · exact like.queues client clientOwn

theorem LooksLike.persist (like : s.LooksLike own uid keys other) {client : Nat}
    (isOwn : own client = true) (stepped : s.step (.persist client) = some next)
    (otherStepped : other.step (.persist client) = some otherNext) :
    next.LooksLike own uid keys otherNext := by
  rcases step_persist stepped with ⟨write, rest, queued, rfl⟩
  rcases step_persist otherStepped with ⟨otherWrite, otherRest, otherQueued, rfl⟩
  have sameWrites := like.queues client isOwn
  rw [queued, otherQueued, List.cons.injEq] at sameWrites
  rcases sameWrites with ⟨rfl, rfl⟩
  refine ⟨?_, like.sessions, ?_, ?_⟩
  · intro shown shownOwn
    simp only [Function.update_apply, like.queues shown shownOwn]
  · rw [itemListOf_apply, itemListOf_apply, like.itemList]
  · intro key isOwnKey
    rw [itemRecord_apply, itemRecord_apply, like.items key isOwnKey]

/-! ## Deliveries to the account -/

end System

/-- What the reads of the account find: its item list, and items that are complete and there. -/
structure WishlistReadable (uid : String) (itemIds : List String) (db : Database) : Prop where
  stored : itemListOf db uid = some itemIds
  complete : System.ItemsComplete db
  present : snapshotExists (db firItemsNode) = true

/-- Equal wanted ids and equal records at them show the same items, up to order. -/
theorem exists_perm_readItems {db otherDb : Database} {wanted : List String}
    {snapshot otherSnapshot : Collection} (current otherCurrent : List Item)
    (complete : System.ItemsComplete db) (otherComplete : System.ItemsComplete otherDb)
    (present : snapshotExists (db firItemsNode) = true)
    (otherPresent : snapshotExists (otherDb firItemsNode) = true)
    (items : ∀ key ∈ wanted, itemRecord db key = itemRecord otherDb key)
    (taken : Store.IsSnapshot snapshot (db firItemsNode))
    (otherTaken : Store.IsSnapshot otherSnapshot (otherDb firItemsNode)) :
    ∃ shown otherShown, readItems wanted current snapshot = some shown ∧
      readItems wanted otherCurrent otherSnapshot = some otherShown ∧ shown.Perm otherShown := by
  have isRead : (itemsLoop wanted snapshot).isSome :=
    isSome_itemsLoop (System.complete_entries complete taken)
  have otherIsRead : (itemsLoop wanted otherSnapshot).isSome :=
    isSome_itemsLoop (System.complete_entries otherComplete otherTaken)
  rcases Option.isSome_iff_exists.mp isRead with ⟨shown, collected⟩
  rcases Option.isSome_iff_exists.mp otherIsRead with ⟨otherShown, otherCollected⟩
  refine ⟨shown, otherShown, ?_, ?_, Loop.perm_of_collect ?_ collected otherCollected⟩
  · rw [readItems, snapshotExists_eq taken, if_pos present, collected]
  · rw [readItems, snapshotExists_eq otherTaken, if_pos otherPresent, otherCollected]
  · refine Store.restrict_perm_of_lookup ?_
    intro key isWanted
    rw [taken.lookup, otherTaken.lookup]
    exact items key isWanted

/-- A callback of the account succeeds on both pages and leaves them the same. -/
theorem Page.SameUpToOrder.callback {db otherDb : Database} {uid : String}
    {keys itemIds : List String} {page other : Page} {callback : Callback}
    {snapshot otherSnapshot : Collection} (same : page.SameUpToOrder other)
    (shows : page.ShowsOnly keys) (readable : WishlistReadable uid itemIds db)
    (otherReadable : WishlistReadable uid itemIds otherDb)
    (items : ∀ key ∈ keys, itemRecord db key = itemRecord otherDb key)
    (taken : Store.IsSnapshot snapshot (db callback.node))
    (otherTaken : Store.IsSnapshot otherSnapshot (otherDb callback.node)) :
    ∃ next otherNext, page.callback uid snapshot callback = some next ∧
      other.callback uid otherSnapshot callback = some otherNext ∧ next.SameUpToOrder otherNext := by
  cases same with
  | addEntry vc =>
      cases callback with
      | usersCallback =>
          refine ⟨.addEntry { vc with itemIds }, .addEntry { vc with itemIds }, ?_, ?_, .addEntry _⟩
          · simp [Page.callback, AddEntryVC.usersCallback, readOwnList_of_stored taken readable.stored]
          · simp [Page.callback, AddEntryVC.usersCallback,
              readOwnList_of_stored otherTaken otherReadable.stored]
      | _ => exact ⟨_, _, rfl, rfl, .addEntry vc⟩
  | profile vc ItemList same =>
      cases callback with
      | getUserItemID =>
          refine ⟨.profile { vc with IDList := itemIds },
            .profile { vc with IDList := itemIds, ItemList }, ?_, ?_, .profile _ _ same⟩
          · simp [Page.callback, ProfileVC.getUserItemID, readOwnList_of_stored taken readable.stored]
          · simp [Page.callback, ProfileVC.getUserItemID,
              readOwnList_of_stored otherTaken otherReadable.stored]
      | setItems =>
          rcases exists_perm_readItems vc.ItemList ItemList readable.complete otherReadable.complete
            readable.present otherReadable.present (fun key isWanted => items key (shows isWanted))
            taken otherTaken with
            ⟨shown, otherShown, read, otherRead, perm⟩
          refine ⟨.profile { vc with ItemList := shown }, .profile { vc with ItemList := otherShown },
            ?_, ?_, .profile { vc with ItemList := shown } otherShown perm⟩
          · simp [Page.callback, ProfileVC.setItems, read]
          · simp [Page.callback, ProfileVC.setItems, otherRead]
      | _ => exact ⟨_, _, rfl, rfl, .profile vc ItemList same⟩

namespace System

variable {own : Nat → Bool} {uid : String} {keys itemIds : List String}
  {s next other otherNext : System} {event : Event}

theorem LooksLike.deliver (apart : s.Apart own uid keys) (like : s.LooksLike own uid keys other)
    (readable : WishlistReadable uid itemIds s.db)
    (otherReadable : WishlistReadable uid itemIds other.db) {page : Nat} {callback : Callback}
    {snapshot otherSnapshot : Collection}
    (isSeen : (s.ownStep own (.deliver page callback snapshot)).isSome)
    (stepped : s.step (.deliver page callback snapshot) = some next)
    (otherStepped : other.step (.deliver page callback otherSnapshot) = some otherNext) :
    next.LooksLike own uid keys otherNext := by
  rcases step_deliver stepped with ⟨session, isRunning, _, taken, rfl⟩
  rcases step_deliver otherStepped with ⟨otherSession, otherRunning, _, otherTaken, rfl⟩
  have acting : s.actor (.deliver page callback snapshot) = some session.client :=
    client_of_running isRunning
  have isOwn := (isSome_ownStep_iff acting).mp isSeen
  have isOpen := (running_eq_some_iff.mp isRunning).1
  have sameUser := (apart.signedIn page session isOpen).mp isOwn
  have same := like.sameUpToOrder isRunning otherRunning isOwn
  have shows := apart.ownPages page session isOpen sameUser
  rcases same.page.callback shows readable otherReadable like.items taken otherTaken with
    ⟨loaded, otherLoaded, ran, otherRan, samePage⟩
  have delivered : session.deliver callback snapshot =
      { session with page := loaded, pending := session.pending.erase callback } := by
    simp [Session.deliver, sameUser, ran]
  have otherDelivered : otherSession.deliver callback otherSnapshot =
      { otherSession with page := otherLoaded, pending := otherSession.pending.erase callback } := by
    simp [Session.deliver, ← same.userID, sameUser, otherRan]
  refine like.replaced ?_ rfl rfl rfl rfl like.queues
  rw [delivered, otherDelivered]
  exact ⟨same.client, same.userID, by simp [same.pending], same.status, samePage⟩

/-! ## Two runs -/

theorem wishlistReadable_of_opened {events : List Event}
    (reached : Machine.run step {} events = some s)
    (every : Machine.EachStep step (ActsApart own uid) {} events) {page : Nat} {session : Session}
    (isOpen : s.sessions page = some session) (sameUser : session.userID = uid) :
    ∃ itemIds, WishlistReadable uid itemIds s.db := by
  rcases (wishlistStored_of_opened reached every isOpen sameUser).stored with
    ⟨itemIds, stored, nonempty⟩
  have inItems : itemIds ⊆ (s.db firItemsNode).keys := by
    intro itemId itemId_mem
    rw [Store.mem_keys_iff]
    exact (listsSupplied_run reached).stored uid itemIds stored itemId itemId_mem
  exact ⟨itemIds, stored, itemsComplete_run reached,
    snapshotExists_of_stored (Store.IsSnapshot.refl _) nonempty inItems⟩

/-- A step that both own clients take keeps what they see the same. -/
theorem LooksLike.seen {events otherEvents : List Event} {otherEvent action : Event}
    (taken : Machine.Extends step (ActsApart own uid) {} events s event next)
    (otherTaken : Machine.Extends step (ActsApart own uid) {} otherEvents other otherEvent otherNext)
    (isSeen : s.ownStep own event = some action)
    (otherSeen : other.ownStep own otherEvent = some action)
    (like : s.LooksLike own uid (ownKeys (Machine.observed step (ownStep own) {} events)) other) :
    next.LooksLike own uid
      (ownKeys (Machine.observed step (ownStep own) {} events ++ [action])) otherNext := by
  have stepped := taken.stepped
  have otherStepped := otherTaken.stepped
  have seen := Option.isSome_of_mem isSeen
  rw [ownStep_eq_some_iff] at isSeen otherSeen
  rcases isSeen with ⟨isOwn, rfl⟩
  have sameKey : otherEvent.key = event.key := by
    rw [← Event.key_withoutSnapshot, otherSeen.2, Event.key_withoutSnapshot]
  rw [ownKeys_concat]
  have withKey := like.with_key (newItemsFresh_run taken.reached)
    (newItemsFresh_run otherTaken.reached) (event.key.toList)
    (fun key isKey => notMem_keys_of_key stepped (Option.mem_toList.mp isKey))
    (fun key isKey => notMem_keys_of_key otherStepped (sameKey ▸ Option.mem_toList.mp isKey))
  rcases Event.deliver_or_eq_of_withoutSnapshot otherSeen.2 with
    ⟨page, callback, otherSnapshot, snapshot, rfl, rfl⟩ | ⟨rfl, notDeliver⟩
  · have apart := apart_run taken.reached taken.every
    rcases step_deliver stepped with ⟨session, isRunning, _, _, _⟩
    have acting : s.actor (.deliver page callback snapshot) = some session.client :=
      client_of_running isRunning
    have sessionOwn := (isSome_ownStep_iff acting).mp seen
    have isOpen := (running_eq_some_iff.mp isRunning).1
    have sameUser := (apart.signedIn page session isOpen).mp sessionOwn
    rcases like.exists_session isOpen sessionOwn with ⟨otherSession, otherOpen, same⟩
    rcases wishlistReadable_of_opened taken.reached taken.every isOpen sameUser with
      ⟨itemIds, readable⟩
    rcases wishlistReadable_of_opened otherTaken.reached otherTaken.every otherOpen
      (same.userID ▸ sameUser) with ⟨otherItemIds, otherReadable⟩
    have sameIds : itemIds = otherItemIds := by
      rw [← Option.some.injEq, ← readable.stored, ← otherReadable.stored, like.itemList]
    subst sameIds
    simpa [Event.key] using like.deliver apart readable otherReadable seen stepped otherStepped
  · cases otherEvent with
    | signUp client newUid newItemId userName userEmail => exact withKey.signUp stepped otherStepped
    | viewDidLoad page client userID screen =>
        have opens := taken.allowed
        exact withKey.viewDidLoad (opens.2 (opens.1.mp isOwn)).1 stepped otherStepped
    | viewWillAppear page => exact withKey.viewWillAppear seen stepped otherStepped
    | deliver page callback snapshot => exact absurd rfl (notDeliver page callback snapshot)
    | press page button => exact withKey.press seen stepped otherStepped
    | persist client => exact withKey.persist isOwn stepped otherStepped
    | stop client =>
        have isForeign : own client = false := taken.allowed
        simp [actor, isForeign] at isOwn

/-- The account sees the same wishlist in both states. -/
structure SameWishlist (uid : String) (s other : System) : Prop where
  itemList : itemListOf s.db uid = itemListOf other.db uid
  shown : ∀ page session vc, s.sessions page = some session → session.userID = uid →
    session.page = .profile vc → ∃ otherSession otherVC,
      other.sessions page = some otherSession ∧ otherSession.userID = uid ∧
        otherSession.page = .profile otherVC ∧ vc.ItemList.Perm otherVC.ItemList

theorem looksLike_run {events otherEvents : List Event}
    (reached : Machine.run step {} events = some s)
    (every : Machine.EachStep step (ActsApart own uid) {} events)
    (otherReached : Machine.run step {} otherEvents = some other)
    (otherEvery : Machine.EachStep step (ActsApart own uid) {} otherEvents)
    (same : Machine.observed step (ownStep own) {} events =
      Machine.observed step (ownStep own) {} otherEvents) :
    s.LooksLike own uid (ownKeys (Machine.observed step (ownStep own) {} events)) other := by
  refine Machine.unwinding (fun actions s other => s.LooksLike own uid (ownKeys actions) other)
    ?_ LooksLike.symm ?_ ?_ reached every otherReached otherEvery same
  · exact ⟨fun _ _ => rfl, fun _ => .none, rfl, by simp [ownKeys]⟩
  · intro events state event next other taken isHidden like
    exact like.of_undisturbed
      (undisturbed_of_hidden (apart_run taken.reached taken.every) taken.stepped isHidden)
  · intro events state event next otherEvents other otherEvent otherNext action taken otherTaken
      isSeen otherSeen _ like
    exact like.seen taken otherTaken isSeen otherSeen

/-- Two runs in which the clients of an account take the same steps, and all other clients
whatever steps they like, show the account the same wishlist. -/
theorem sameWishlist_of_sameOwnSteps {events otherEvents : List Event}
    (reached : Machine.run step {} events = some s)
    (every : Machine.EachStep step (ActsApart own uid) {} events)
    (otherReached : Machine.run step {} otherEvents = some other)
    (otherEvery : Machine.EachStep step (ActsApart own uid) {} otherEvents)
    (same : Machine.observed step (ownStep own) {} events =
      Machine.observed step (ownStep own) {} otherEvents) :
    SameWishlist uid s other := by
  have like := looksLike_run reached every otherReached otherEvery same
  have apart := apart_run reached every
  refine ⟨like.itemList, ?_⟩
  intro page session vc isOpen sameUser isProfile
  have isOwn := (apart.signedIn page session isOpen).mpr sameUser
  rcases like.exists_session isOpen isOwn with ⟨otherSession, otherOpen, same⟩
  have samePage := same.page
  rw [isProfile] at samePage
  generalize isOther : otherSession.page = otherPage at samePage
  cases samePage with
  | profile _ ItemList perm =>
      exact ⟨otherSession, { vc with ItemList }, otherOpen, same.userID ▸ sameUser, isOther, perm⟩

def sampleShoes : Record :=
  itemAttributes "My Cool Shoes" "None" "M" "blizzard blue"

def annAfterSave : Record :=
  (newUser "shoes1" "Ann" "ann@example.com" "ann").insert firItemListNode
    (.strings ["shoes1", "hat"])

def bobAfterSave : Record :=
  ((newUser "shoes2" "Bob" "bob@example.com" "bob").insert firFriendListNode
    (.strings ["ann"])).insert firItemListNode (.strings ["coat"])

/-- `ann` signs up, saves an item and opens her profile, while nobody else does anything. -/
def annAlone : List Event :=
  [.signUp 0 "ann" "shoes1" "Ann" "ann@example.com", .persist 0, .persist 0, .persist 0, .persist 0,
    .viewDidLoad 0 0 "ann" .addEntry,
    .deliver 0 .usersCallback [⟨"ann", newUser "shoes1" "Ann" "ann@example.com" "ann"⟩].toAList,
    .press 0 (.save ⟨"Hat", "", "", ""⟩ "hat"), .persist 0, .persist 0,
    .viewDidLoad 1 0 "ann" .profile,
    .deliver 1 .getUserItemID [⟨"ann", annAfterSave⟩].toAList,
    .deliver 1 .setItems [⟨"hat", itemAttributes "Hat" "" "" ""⟩, ⟨"shoes1", sampleShoes⟩].toAList]

/-- The same steps of `ann`, while `bob` signs up, follows her and saves an item on a page that has
not received his list. -/
def annAmongOthers : List Event :=
  [.signUp 1 "bob" "shoes2" "Bob" "bob@example.com", .persist 1,
    .signUp 0 "ann" "shoes1" "Ann" "ann@example.com", .persist 0, .persist 1, .persist 0, .persist 1,
    .persist 0, .persist 1, .persist 0,
    .viewDidLoad 0 0 "ann" .addEntry, .viewDidLoad 2 1 "bob" .addEntry,
    .viewDidLoad 3 1 "bob" (.user "ann"), .press 3 .follow,
    .deliver 0 .usersCallback annAndBob, .press 2 (.save ⟨"Coat", "", "", ""⟩ "coat"),
    .persist 1, .persist 1, .press 0 (.save ⟨"Hat", "", "", ""⟩ "hat"), .persist 0, .persist 1,
    .persist 0, .viewDidLoad 1 0 "ann" .profile,
    .deliver 1 .getUserItemID [⟨"bob", bobAfterSave⟩, ⟨"ann", annAfterSave⟩].toAList,
    .deliver 1 .setItems [⟨"shoes1", sampleShoes⟩, ⟨"coat", itemAttributes "Coat" "" "" ""⟩,
      ⟨"shoes2", sampleShoes⟩, ⟨"hat", itemAttributes "Hat" "" "" ""⟩].toAList]

theorem sameWishlist_annAmongOthers :
    SameWishlist "ann" ((Machine.run step {} annAlone).get (by decide))
      ((Machine.run step {} annAmongOthers).get (by decide)) := by
  have alone : Machine.EachStep step (ActsApart (fun client => client = 0) "ann") {} annAlone :=
    Machine.eachStep_of_forall_lt (by decide)
  have amongOthers :
      Machine.EachStep step (ActsApart (fun client => client = 0) "ann") {} annAmongOthers :=
    Machine.eachStep_of_forall_lt (by decide)
  exact sameWishlist_of_sameOwnSteps (Option.some_get _).symm alone (Option.some_get _).symm
    amongOthers rfl

end System

end PriceTracker
