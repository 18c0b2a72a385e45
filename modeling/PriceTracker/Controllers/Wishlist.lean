import PriceTracker.Database
import PriceTracker.Library.Loop

/-!
# Writing and showing a wishlist

`AddEntryVC` stores a new item and appends its id to a local copy of the user's
item list, which it then writes back as a whole. `ProfileVC` shows the items whose
ids are in the item list it has read last. The loop over `items` is shared with the
two pages that show another user.

A callback returns `none` where the source reaches a nil force-unwrap, a failed
forced cast or an index out of range.
-/

namespace PriceTracker

/-- The callbacks that read one list of the signed-in user's own record. The record and the
list are force-unwrapped; a node that does not exist leaves the local list as it is. -/
def readOwnList (snapshot : Collection) (userID field : String) (current : List String) :
    Option (List String) :=
  if snapshotExists snapshot then do
    let user ← snapshot.lookup userID
    stringsAt user field
  else some current

theorem readOwnList_eq_some_iff {snapshot : Collection} {userID field : String}
    {current list : List String} :
    readOwnList snapshot userID field current = some list ↔
      (snapshotExists snapshot = true ∧
        (snapshot.lookup userID).bind (fun user => stringsAt user field) = some list) ∨
      (snapshotExists snapshot = false ∧ current = list) := by
  cases present : snapshotExists snapshot <;> simp [readOwnList, present]

theorem readOwnList_cases {snapshot : Collection} {userID field : String}
    {current list : List String} (own : readOwnList snapshot userID field current = some list) :
    list = current ∨
      ∃ user, snapshot.lookup userID = some user ∧ stringsAt user field = some list := by
  rcases readOwnList_eq_some_iff.mp own with ⟨_, found⟩ | ⟨_, same⟩
  · exact Or.inr (Option.bind_eq_some_iff.mp found)
  · exact Or.inl same.symm

theorem isSome_readOwnList_iff {snapshot : Collection} {userID field : String}
    {current : List String} :
    (readOwnList snapshot userID field current).isSome ↔
      (snapshotExists snapshot = true →
        ((snapshot.lookup userID).bind fun user => stringsAt user field).isSome) := by
  cases present : snapshotExists snapshot <;> simp [readOwnList, present]

theorem readOwnList_of_stored {db : Database} {snapshot : Collection} {userID field : String}
    {current list : List String} (taken : Store.IsSnapshot snapshot (db firUsersNode))
    (stored : (userRecord db userID).bind (fun user => stringsAt user field) = some list) :
    readOwnList snapshot userID field current = some list := by
  rcases Option.bind_eq_some_iff.mp stored with ⟨user, isUser, hasList⟩
  have found : snapshot.lookup userID = some user := taken.lookup userID ▸ isUser
  have present : snapshotExists snapshot = true := by
    simp [snapshotExists, Store.entries_ne_nil_of_lookup found]
  simp [readOwnList, present, found, hasList]

/-- An item as the item pages show it. -/
structure Item where
  itemName : String
  itemURL : String
  itemSize : String
  itemColor : String
  itemID : String
  deriving DecidableEq, Repr

/-- The four fields of an entry of `items`, each force-unwrapped. -/
def itemAt (key : String) (item : Record) : Option Item := do
  let color := stringAt item firColorNode
  let itemname := stringAt item firItemNameNode
  let link := stringAt item firLinkNode
  let size := stringAt item firSizeNode
  some { itemName := ← itemname, itemURL := ← link, itemSize := ← size, itemColor := ← color,
         itemID := key }

/-- The loop of `setItems` and of both `getItems`: the items of a snapshot whose key is wanted. -/
def itemsLoop (wanted : List String) (itemids : Collection) : Option (List Item) :=
  Loop.collect (fun entry => wanted.contains entry.1) (fun entry => itemAt entry.1 entry.2)
    itemids.entries

/-- `setItems` and both `getItems`: a node that does not exist leaves the shown items as they
are. -/
def readItems (wanted : List String) (current : List Item) (snapshot : Collection) :
    Option (List Item) :=
  if snapshotExists snapshot then itemsLoop wanted snapshot else some current

/-- The attributes of a new entry of `items`. -/
def itemAttributes (itemName itemLink itemSize itemColor : String) : Record :=
  dictionary [(firItemNameNode, itemName), (firLinkNode, itemLink), (firSizeNode, itemSize),
    (firColorNode, itemColor)]

/-- Reading back the attributes of an item gives the item. -/
@[simp]
theorem itemAt_itemAttributes (key itemName itemLink itemSize itemColor : String) :
    itemAt key (itemAttributes itemName itemLink itemSize itemColor) =
      some ⟨itemName, itemLink, itemSize, itemColor, key⟩ := by
  simp [itemAt, itemAttributes, stringAt_dictionary, List.lookup_cons, firColorNode,
    firItemNameNode, firLinkNode, firSizeNode]

theorem completeItem_itemAttributes (itemName itemLink itemSize itemColor : String) :
    CompleteItem (itemAttributes itemName itemLink itemSize itemColor) := by
  constructor <;>
    simp [itemAttributes, stringAt_dictionary, List.lookup_cons, firColorNode, firItemNameNode,
      firLinkNode, firSizeNode]

theorem isSome_itemAt {key : String} {item : Record} (complete : CompleteItem item) :
    (itemAt key item).isSome := by
  rcases Option.isSome_iff_exists.mp complete.itemName with ⟨itemname, hasName⟩
  rcases Option.isSome_iff_exists.mp complete.link with ⟨link, hasLink⟩
  rcases Option.isSome_iff_exists.mp complete.size with ⟨size, hasSize⟩
  rcases Option.isSome_iff_exists.mp complete.color with ⟨color, hasColor⟩
  simp [itemAt, hasName, hasLink, hasSize, hasColor]

theorem isSome_itemsLoop {wanted : List String} {itemids : Collection}
    (complete : ∀ entry ∈ itemids.entries, CompleteItem entry.2) :
    (itemsLoop wanted itemids).isSome := by
  rw [itemsLoop, Loop.isSome_collect_iff]
  intro entry entry_mem _
  exact isSome_itemAt (complete entry entry_mem)

theorem isSome_readItems {wanted : List String} {current : List Item} {snapshot : Collection}
    (complete : ∀ entry ∈ snapshot.entries, CompleteItem entry.2) :
    (readItems wanted current snapshot).isSome := by
  unfold readItems
  split_ifs
  · exact isSome_itemsLoop complete
  · rfl

/-! ## AddEntryVC -/

/-- What the four text fields of the page hold. -/
structure EntryForm where
  itemNameTextField : String
  linkTextField : String
  sizeTextField : String
  colorTextField : String
  deriving DecidableEq, Repr

structure AddEntryVC where
  name : String := ""
  link : String := ""
  size : String := ""
  color : String := ""
  itemIds : List String := []
  deriving DecidableEq, Repr

namespace AddEntryVC

/-- The users snapshot requested by `viewDidLoad`. -/
def usersCallback (vc : AddEntryVC) (currentUserID : String) (snapshot : Collection) :
    Option AddEntryVC :=
  (readOwnList snapshot currentUserID firItemListNode vc.itemIds).map fun itemIds =>
    { vc with itemIds }

/-- The new item is written first, then the whole local list with its id at the end. -/
def addItem (vc : AddEntryVC) (currentUserID newItemId : String)
    (itemName itemLink itemSize itemColor : String) : AddEntryVC × List Write :=
  let itemAttr := itemAttributes itemName itemLink itemSize itemColor
  let itemIds := vc.itemIds ++ [newItemId]
  ({ vc with itemIds }, [.setItem newItemId itemAttr, .updateItemList currentUserID itemIds])

/-- The action of the Save button. `newItemId` is the key that `childByAutoId` returns. -/
def save (vc : AddEntryVC) (currentUserID newItemId : String) (form : EntryForm) :
    AddEntryVC × List Write :=
  let vc := { vc with name := form.itemNameTextField, link := form.linkTextField,
                      size := form.sizeTextField, color := form.colorTextField }
  vc.addItem currentUserID newItemId vc.name vc.link vc.size vc.color

@[simp]
theorem writes_save (vc : AddEntryVC) (currentUserID newItemId : String) (form : EntryForm) :
    (vc.save currentUserID newItemId form).2 =
      [.setItem newItemId (itemAttributes form.itemNameTextField form.linkTextField
        form.sizeTextField form.colorTextField),
       .updateItemList currentUserID (vc.itemIds ++ [newItemId])] := rfl

end AddEntryVC

/-! ## ProfileVC -/

structure ProfileVC where
  IDList : List String := []
  ItemList : List Item := []
  itemToSend : Option Item := none
  deriving DecidableEq, Repr

namespace ProfileVC

def getUserItemID (vc : ProfileVC) (userID : String) (snapshot : Collection) :
    Option ProfileVC :=
  (readOwnList snapshot userID firItemListNode vc.IDList).map fun IDList => { vc with IDList }

def setItems (vc : ProfileVC) (snapshot : Collection) : Option ProfileVC :=
  (readItems vc.IDList vc.ItemList snapshot).map fun ItemList => { vc with ItemList }

def numberOfRows (vc : ProfileVC) : Nat := vc.ItemList.length

def cellForRowAt (vc : ProfileVC) (row : Nat) : Option String :=
  vc.ItemList[row]?.map Item.itemName

def didSelectRowAt (vc : ProfileVC) (row : Nat) : Option ProfileVC :=
  vc.ItemList[row]?.map fun item => { vc with itemToSend := some item }

theorem isSome_setItems {vc : ProfileVC} {snapshot : Collection}
    (complete : ∀ entry ∈ snapshot.entries, CompleteItem entry.2) :
    (vc.setItems snapshot).isSome := by
  simpa [setItems] using isSome_readItems complete

end ProfileVC

end PriceTracker
