import PriceTracker.Deliveries
import PriceTracker.ItemStore

/-!
# The items that a page shows in the end

The read of the items filters by the list of ids that the page holds at that moment, and it
is not repeated when that list changes. Whatever the order of the deliveries, a page ends
with exactly the items of its user if and only if some read of the items is delivered after
some read of the ids.
-/

namespace PriceTracker

/-- The list shows the stored items with the given ids, each once. -/
structure ShowsItems (db : Database) (itemIds : List String) (shown : List Item) : Prop where
  once : (shown.map Item.itemID).Nodup
  listed : ∀ itemId, itemId ∈ shown.map Item.itemID ↔ itemId ∈ itemIds
  fields : ∀ item ∈ shown, ∃ record, itemRecord db item.itemID = some record ∧
    itemAt item.itemID record = some item

/-- The listed items have all four fields. -/
def ListedComplete (db : Database) (itemIds : List String) : Prop :=
  ∀ itemId ∈ itemIds, ∀ item, itemRecord db itemId = some item → CompleteItem item

theorem isSome_itemAt_iff {key : String} {item : Record} :
    (itemAt key item).isSome ↔ CompleteItem item := by
  constructor
  · intro readable
    rcases Option.isSome_iff_exists.mp readable with ⟨found, read⟩
    simp only [itemAt, Option.bind_eq_bind, Option.bind_eq_some_iff] at read
    rcases read with ⟨itemname, hasName, link, hasLink, size, hasSize, color, hasColor, _⟩
    exact ⟨by simp [hasName], by simp [hasLink], by simp [hasSize], by simp [hasColor]⟩
  · exact isSome_itemAt

theorem itemID_of_itemAt {key : String} {item : Record} {found : Item}
    (read : itemAt key item = some found) : found.itemID = key := by
  simp only [itemAt, Option.bind_eq_bind, Option.bind_eq_some_iff, Option.some.injEq] at read
  rcases read with ⟨_, _, _, _, _, _, _, _, rfl⟩
  rfl

section Items

variable {db : Database} {wanted itemIds : List String} {snapshot : Collection}
  {shown current : List Item}

theorem map_itemID_of_itemsLoop (collected : itemsLoop wanted snapshot = some shown) :
    shown.map Item.itemID = (Store.restrict wanted snapshot).map Sigma.fst := by
  have read : (Store.restrict wanted snapshot).map (fun entry => itemAt entry.1 entry.2) =
      shown.map some := Loop.collect_eq_some_iff.mp collected
  have ids : (shown.map some).map (Option.map Item.itemID) =
      (Store.restrict wanted snapshot).map fun entry => some entry.1 := by
    rw [← read, List.map_map]
    apply List.map_congr_left
    intro entry entry_mem
    have isRead : itemAt entry.1 entry.2 ∈ shown.map some := by
      rw [← read]
      exact List.mem_map_of_mem entry_mem
    rcases List.mem_map.mp isRead with ⟨found, _, same⟩
    simp [← same, itemID_of_itemAt same.symm]
  apply List.map_injective_iff.mpr (fun _ _ => Option.some.inj)
  simpa [List.map_map, Function.comp_def] using ids

/-- The loop shows the stored items among the wanted ones. -/
theorem showsItems_of_itemsLoop (taken : Store.IsSnapshot snapshot (db firItemsNode))
    (stored : wanted ⊆ (db firItemsNode).keys) (collected : itemsLoop wanted snapshot = some shown) :
    ShowsItems db wanted shown := by
  have ids := map_itemID_of_itemsLoop collected
  have read : (Store.restrict wanted snapshot).map (fun entry => itemAt entry.1 entry.2) =
      shown.map some := Loop.collect_eq_some_iff.mp collected
  constructor
  · rw [ids]
    exact Store.nodup_keys_restrict
  · intro itemId
    rw [ids, Store.mem_keys_restrict_iff, taken.keys.mem_iff]
    exact ⟨And.left, fun isWanted => ⟨isWanted, stored isWanted⟩⟩
  · intro item item_mem
    have isRead : some item ∈ (Store.restrict wanted snapshot).map
        (fun entry => itemAt entry.1 entry.2) := by
      rw [read]
      exact List.mem_map_of_mem item_mem
    rcases List.mem_map.mp isRead with ⟨⟨key, record⟩, entry_mem, same⟩
    have isEntry := Store.mem_entries_iff.mp (Store.mem_restrict_iff.mp entry_mem).1
    rw [taken.lookup] at isEntry
    have isKey := itemID_of_itemAt same
    subst isKey
    exact ⟨record, isEntry, same⟩

theorem isSome_itemsLoop_iff (taken : Store.IsSnapshot snapshot (db firItemsNode)) :
    (itemsLoop wanted snapshot).isSome ↔ ListedComplete db wanted := by
  rw [itemsLoop, Loop.isSome_collect_iff]
  simp only [List.contains_iff_mem, isSome_itemAt_iff]
  constructor
  · intro complete itemId isWanted item stored
    apply complete ⟨itemId, item⟩ ?_ isWanted
    rw [Store.mem_entries_iff, taken.lookup]
    exact stored
  · rintro complete ⟨itemId, item⟩ entry_mem isWanted
    rw [Store.mem_entries_iff, taken.lookup] at entry_mem
    exact complete itemId isWanted item entry_mem

/-- A page without ids shows nothing. -/
theorem readItems_nil : readItems [] [] snapshot = some [] := by
  unfold readItems
  split_ifs
  · rw [itemsLoop, Loop.collect_eq_some_iff]
    simp
  · rfl

theorem snapshotExists_of_stored (taken : Store.IsSnapshot snapshot (db firItemsNode))
    (nonempty : itemIds ≠ []) (stored : itemIds ⊆ (db firItemsNode).keys) :
    snapshotExists snapshot = true := by
  rcases List.exists_mem_of_ne_nil itemIds nonempty with ⟨itemId, itemId_mem⟩
  have inItems := stored itemId_mem
  rw [Store.mem_keys_iff, ← taken.lookup] at inItems
  rcases Option.isSome_iff_exists.mp inItems with ⟨item, found⟩
  simp [snapshotExists, Store.entries_ne_nil_of_lookup found]

end Items

/-! ## All deliveries of a page -/

/-- What the item pages rely on: complete user records, an email for each user of its own, and
listed items that are stored. -/
structure ItemPageData (db : Database) : Prop where
  complete : AllComplete db
  emails : EmailsUnique db
  stored : ∀ uid itemIds, itemListOf db uid = some itemIds → itemIds ⊆ (db firItemsNode).keys

theorem pair_sublist_concat {γ : Type} {first second last : γ} {order : List γ} :
    [first, second].Sublist (order ++ [last]) ↔
      [first, second].Sublist order ∨ (first ∈ order ∧ second = last) := by
  constructor
  · intro contained
    rcases List.sublist_append_iff.mp contained with ⟨left, right, split, inOrder, inLast⟩
    rcases left with _ | ⟨one, _ | ⟨two, left⟩⟩
    · simp only [List.nil_append] at split
      subst split
      simpa using inLast.length_le
    · simp only [List.cons_append, List.nil_append, List.cons.injEq] at split
      rcases split with ⟨rfl, rfl⟩
      simp only [List.singleton_sublist, List.mem_singleton] at inOrder inLast
      exact Or.inr ⟨inOrder, inLast⟩
    · simp only [List.cons_append, List.cons.injEq] at split
      rcases split with ⟨rfl, rfl, nothing⟩
      simp only [List.nil_eq, List.append_eq_nil_iff] at nothing
      exact Or.inl (nothing.1 ▸ inOrder)
  · rintro (inOrder | ⟨first_mem, rfl⟩)
    · exact inOrder.trans (List.sublist_append_left _ _)
    · exact (List.singleton_sublist.mpr first_mem).append (List.Sublist.refl [second])

/-- What a page holds after some deliveries, by the order of their callbacks. -/
structure ShownAfter (db : Database) (userID uid : String) (itemIds : List String) (start page : Page)
    (order : List Callback) : Prop where
  isOf : page.IsOf db userID uid
  sameLoads : page.loads = start.loads
  sameShows : page.shows = start.shows
  wanted : page.wantedItems = if start.loads ∈ order then itemIds else []
  exact : [start.loads, start.shows].Sublist order →
    ListedComplete db itemIds ∧ ShowsItems db itemIds page.shownItems
  nothing : ¬ [start.loads, start.shows].Sublist order → page.shownItems = []

section Pages

variable {db : Database} {userID uid : String} {itemIds : List String} {start : Page}

theorem shownAfter_initial {screen : Screen} (isOf : screen.viewDidLoad.1.IsOf db userID uid) :
    ShownAfter db userID uid itemIds screen.viewDidLoad.1 screen.viewDidLoad.1 [] where
  isOf := isOf
  sameLoads := rfl
  sameShows := rfl
  wanted := by cases screen <;> rfl
  exact := by simp
  nothing := by
    intro _
    cases screen <;> rfl

theorem ItemPageData.nonempty (data : ItemPageData db) (stored : itemListOf db uid = some itemIds) :
    itemIds ≠ [] := by
  rcases Option.bind_eq_some_iff.mp stored with ⟨user, isUser, hasItems⟩
  rcases (data.complete uid user isUser).itemList with ⟨other, otherItems, nonempty⟩
  rw [hasItems, Option.some.injEq] at otherItems
  exact otherItems ▸ nonempty

/-- A read of the items that comes after a read of the ids shows the items of the user. -/
theorem showsItems_of_readItems (data : ItemPageData db) (stored : itemListOf db uid = some itemIds)
    {snapshot : Collection} {current shown : List Item}
    (taken : Store.IsSnapshot snapshot (db firItemsNode))
    (read : readItems itemIds current snapshot = some shown) :
    ListedComplete db itemIds ∧ ShowsItems db itemIds shown := by
  have present := snapshotExists_of_stored taken (data.nonempty stored) (data.stored uid itemIds stored)
  rw [readItems, if_pos present] at read
  exact ⟨(isSome_itemsLoop_iff taken).mp (Option.isSome_of_mem read),
    showsItems_of_itemsLoop taken (data.stored uid itemIds stored) read⟩

theorem shownAfter_delivery (data : ItemPageData db) (stored : itemListOf db uid = some itemIds)
    {page next : Page} {order : List Callback}
    (after : ShownAfter db userID uid itemIds start page order) {callback : Callback}
    {snapshot : Collection} (taken : Store.IsSnapshot snapshot (db callback.node))
    (ran : page.callback userID snapshot callback = some next) :
    ShownAfter db userID uid itemIds start next (order ++ [callback]) := by
  have effect := itemsAfter_callback data.emails after.isOf stored taken ran
  have wanted := effect.wanted
  have shown := effect.shown
  rw [after.sameLoads, after.wanted] at wanted
  rw [after.sameShows, after.wanted] at shown
  refine ⟨effect.isOf, effect.sameLoads.trans after.sameLoads,
    effect.sameShows.trans after.sameShows, ?_, ?_, ?_⟩
  · rw [wanted]
    by_cases isLoad : callback = start.loads
    · simp [isLoad]
    · simp [isLoad, Ne.symm isLoad]
  · rw [pair_sublist_concat]
    intro loaded
    by_cases isShow : callback = start.shows
    · have readsItems : callback.node = firItemsNode := by
        rw [isShow]
        cases start <;> rfl
      have loadedBefore : start.loads ∈ order := by
        rcases loaded with inOrder | ⟨before, _⟩
        · exact inOrder.subset List.mem_cons_self
        · exact before
      rw [if_pos isShow, if_pos loadedBefore] at shown
      exact showsItems_of_readItems data stored (readsItems ▸ taken) shown
    · rw [if_neg isShow] at shown
      rw [shown]
      rcases loaded with inOrder | ⟨_, same⟩
      · exact after.exact inOrder
      · exact absurd same.symm isShow
  · rw [pair_sublist_concat, not_or, not_and]
    rintro ⟨notInOrder, notNow⟩
    by_cases isShow : callback = start.shows
    · have notLoaded : start.loads ∉ order := fun before => notNow before isShow.symm
      rw [if_pos isShow, if_neg notLoaded, after.nothing notInOrder, readItems_nil,
        Option.some.injEq] at shown
      exact shown.symm
    · rw [if_neg isShow] at shown
      rw [shown]
      exact after.nothing notInOrder

theorem shownAfter_run (data : ItemPageData db) (stored : itemListOf db uid = some itemIds)
    {screen : Screen} (isOf : screen.viewDidLoad.1.IsOf db userID uid) {page : Page}
    {deliveries : List (Callback × Collection)} (fromDb : Page.DeliveredFrom db deliveries)
    (reached : Machine.run (Page.deliver userID) screen.viewDidLoad.1 deliveries = some page) :
    ShownAfter db userID uid itemIds screen.viewDidLoad.1 page (deliveries.map Prod.fst) := by
  refine Machine.run_induction (motive := fun deliveries page =>
    Page.DeliveredFrom db deliveries →
      ShownAfter db userID uid itemIds screen.viewDidLoad.1 page (deliveries.map Prod.fst))
    (fun _ => shownAfter_initial isOf) ?_ reached fromDb
  rintro deliveries page ⟨callback, snapshot⟩ next _ ih ran fromDb
  have before : Page.DeliveredFrom db deliveries :=
    fun delivery delivery_mem => fromDb delivery (List.mem_append_left _ delivery_mem)
  rw [List.map_append, List.map_singleton]
  exact shownAfter_delivery data stored (ih before)
    (fromDb (callback, snapshot) (List.mem_append_right _ List.mem_cons_self)) ran

/-- On complete items no delivery fails. -/
theorem exists_run_of_complete (data : ItemPageData db) (stored : itemListOf db uid = some itemIds)
    (own : (userRecord db userID).isSome) (complete : ListedComplete db itemIds) {screen : Screen}
    (isOf : screen.viewDidLoad.1.IsOf db userID uid) {deliveries : List (Callback × Collection)}
    (fromDb : Page.DeliveredFrom db deliveries) :
    ∃ page, Machine.run (Page.deliver userID) screen.viewDidLoad.1 deliveries = some page := by
  induction deliveries using List.reverseRecOn with
  | nil => exact ⟨_, rfl⟩
  | append_singleton deliveries delivery ih =>
      have before : Page.DeliveredFrom db deliveries :=
        fun earlier earlier_mem => fromDb earlier (List.mem_append_left _ earlier_mem)
      have taken := fromDb delivery (List.mem_append_right _ List.mem_cons_self)
      rcases ih before with ⟨page, reached⟩
      have after := shownAfter_run data stored isOf before reached
      rcases Option.bind_eq_some_iff.mp stored with ⟨user, isUser, _⟩
      have ran : (page.callback userID delivery.2 delivery.1).isSome := by
        refine isSome_callback_of_complete data.complete own after.isOf (by simp [isUser]) taken ?_
        intro isShow
        have readsItems : delivery.1.node = firItemsNode := by
          rw [isShow]
          cases page <;> rfl
        rw [after.wanted]
        unfold readItems
        split_ifs
        · exact (isSome_itemsLoop_iff (readsItems ▸ taken)).mpr complete
        · exact (isSome_itemsLoop_iff (readsItems ▸ taken)).mpr (by simp [ListedComplete])
        · rfl
      rcases Option.isSome_iff_exists.mp ran with ⟨next, isNext⟩
      exact ⟨next, (Machine.run_concat reached delivery).trans isNext⟩

/-- For the profile of the signed-in user and the pages of another one, on every database with the
data they rely on and for any deliveries in any order: the page ends with exactly the items of its
user if and only if the listed items are complete and some read of the items is delivered after some
read of the ids. -/
theorem showsItems_iff_loadsBeforeShows (data : ItemPageData db)
    (stored : itemListOf db uid = some itemIds) (own : (userRecord db userID).isSome)
    {screen : Screen} (isOf : screen.viewDidLoad.1.IsOf db userID uid)
    {deliveries : List (Callback × Collection)} (fromDb : Page.DeliveredFrom db deliveries) :
    (∃ page, Machine.run (Page.deliver userID) screen.viewDidLoad.1 deliveries = some page ∧
      ShowsItems db itemIds page.shownItems) ↔
    ListedComplete db itemIds ∧
      [screen.viewDidLoad.1.loads, screen.viewDidLoad.1.shows].Sublist (deliveries.map Prod.fst) := by
  constructor
  · rintro ⟨page, reached, shows⟩
    have after := shownAfter_run data stored isOf fromDb reached
    have loaded : [screen.viewDidLoad.1.loads, screen.viewDidLoad.1.shows].Sublist
        (deliveries.map Prod.fst) := by
      by_contra notLoaded
      rcases List.exists_mem_of_ne_nil itemIds (data.nonempty stored) with ⟨itemId, itemId_mem⟩
      have isShown := (shows.listed itemId).mpr itemId_mem
      rw [after.nothing notLoaded] at isShown
      simp at isShown
    exact ⟨(after.exact loaded).1, loaded⟩
  · rintro ⟨complete, loaded⟩
    rcases exists_run_of_complete data stored own complete isOf fromDb with ⟨page, reached⟩
    exact ⟨page, reached, ((shownAfter_run data stored isOf fromDb reached).exact loaded).2⟩

end Pages

namespace System

/-- With sign-ups at once, the database has the data of the item pages if its emails are unique. -/
theorem itemPageData_reachable {events : List Event} {s : System}
    (reached : Machine.run (stepNow Event.isSignUp) {} events = some s)
    (emails : EmailsUnique s.db) : ItemPageData s.db := by
  rcases exists_run_of_run_stepNow reached with ⟨fine, toState⟩
  refine ⟨(recordsComplete_run (fun _ isSignUp => isSignUp) reached).users.allComplete, emails, ?_⟩
  intro uid itemIds stored itemId itemId_mem
  rw [Store.mem_keys_iff]
  exact (listsSupplied_run toState).stored uid itemIds stored itemId itemId_mem

theorem itemPageData_afterTwoSignUps : ItemPageData afterTwoSignUps :=
  itemPageData_reachable (Option.some_get _).symm (emailsUnique_of_nodup (by decide))

/-- Deliver the callbacks, with the nodes as they are stored. -/
def deliveredInOrder (db : Database) (order : List Callback) : List (Callback × Collection) :=
  order.map fun callback => (callback, db callback.node)

end System

theorem showsItems_iff_loadsBeforeShows_bobInRequestOrder :
    let screen := Screen.userCopy "bob@example.com"
    let deliveries := System.deliveredInOrder System.afterTwoSignUps screen.requested
    (∃ page, Machine.run (Page.deliver "ann") screen.viewDidLoad.1 deliveries = some page ∧
      ShowsItems System.afterTwoSignUps ["shoes2"] page.shownItems) ↔
    ListedComplete System.afterTwoSignUps ["shoes2"] ∧
      [Callback.getUserInfo, .getItems].Sublist (deliveries.map Prod.fst) := by
  intro screen deliveries
  have isOf : screen.viewDidLoad.1.IsOf System.afterTwoSignUps "ann" "bob" :=
    show emailOf System.afterTwoSignUps "bob" = some "bob@example.com" by decide
  exact showsItems_iff_loadsBeforeShows System.itemPageData_afterTwoSignUps (by decide) (by decide)
    isOf (by decide)

/-- When both reads of the items are delivered first, the profile stays empty. -/
theorem not_showsItems_itemsFirst :
    ItemPageData System.afterTwoSignUps ∧
    itemListOf System.afterTwoSignUps "ann" = some ["shoes1"] ∧
    ((System.deliveredInOrder System.afterTwoSignUps
      [.setItems, .setItems, .getUserItemID, .getUserItemID]).map Prod.fst).Perm
        Screen.profile.requested ∧
    Page.DeliveredFrom System.afterTwoSignUps (System.deliveredInOrder System.afterTwoSignUps
      [.setItems, .setItems, .getUserItemID, .getUserItemID]) ∧
    ∃ page, Machine.run (Page.deliver "ann") Screen.profile.viewDidLoad.1
        (System.deliveredInOrder System.afterTwoSignUps
          [.setItems, .setItems, .getUserItemID, .getUserItemID]) = some page ∧
      ¬ ShowsItems System.afterTwoSignUps ["shoes1"] page.shownItems := by
  refine ⟨System.itemPageData_afterTwoSignUps, by decide, by decide, by decide,
    .profile { IDList := ["shoes1"] }, by decide, ?_⟩
  intro shows
  exact absurd ((shows.listed "shoes1").mpr (by decide)) (by decide)

end PriceTracker
