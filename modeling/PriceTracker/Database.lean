import PriceTracker.Library.Store

/-!
# The shared database

The Firebase database of the app has two nodes. Under `users` there is a record for
every user id, with the fields `username`, `email`, `friendList` and `itemList`;
under `items` a record for every item id, with the fields `name`, `link`, `size` and
`color`. A field holds a string or a list of strings, and any field may be missing.

The writes are the ones the controllers issue. Each touches one record.
-/

namespace PriceTracker

/-! ## Node names -/

def firUsersNode : String := "users"
def firUsernameNode : String := "username"
def firEmailNode : String := "email"
def firFriendListNode : String := "friendList"
def firItemListNode : String := "itemList"

def firItemsNode : String := "items"
def firColorNode : String := "color"
def firItemNameNode : String := "name"
def firLinkNode : String := "link"
def firSizeNode : String := "size"

/-! ## Values and records -/

/-- What a field of a record holds. -/
inductive Value where
  | string (text : String)
  | strings (list : List String)
  deriving DecidableEq, Repr

/-- `value as? String`. -/
def Value.asString : Value → Option String
  | .string text => some text
  | .strings _ => none

/-- `value as? [String]`. -/
def Value.asStrings : Value → Option (List String)
  | .string _ => none
  | .strings list => some list

abbrev Record : Type := Store.Record String Value
abbrev Collection : Type := Store.Collection String String Value
abbrev Database : Type := Store.Nodes String String String Value

/-- `record[field] as? String`. -/
def stringAt (record : Record) (field : String) : Option String :=
  (record.lookup field).bind Value.asString

/-- `record[field] as? [String]`. -/
def stringsAt (record : Record) (field : String) : Option (List String) :=
  (record.lookup field).bind Value.asStrings

/-- A dictionary literal with string values. -/
def dictionary (fields : List (String × String)) : Record :=
  (fields.map fun field => (⟨field.1, .string field.2⟩ : Sigma fun _ : String => Value)).toAList

/-- `snapshot.exists()`: Firebase keeps no empty nodes. -/
def snapshotExists (snapshot : Collection) : Bool :=
  !snapshot.entries.isEmpty

theorem snapshotExists_eq {collection snapshot : Collection}
    (taken : Store.IsSnapshot snapshot collection) :
    snapshotExists snapshot = snapshotExists collection := by
  rw [snapshotExists, snapshotExists, taken.isEmpty]

theorem lookup_of_not_exists {snapshot : Collection} (absent : snapshotExists snapshot = false)
    (key : String) : snapshot.lookup key = none := by
  cases found : snapshot.lookup key with
  | none => rfl
  | some record => simp [snapshotExists, Store.entries_ne_nil_of_lookup found] at absent

theorem stringAt_insert (record : Record) (field other : String) (value : Value) :
    stringAt (record.insert field value) other =
      if other = field then value.asString else stringAt record other := by
  by_cases same : other = field
  · subst same
    simp [stringAt]
  · simp [stringAt, same, AList.lookup_insert_ne same]

theorem stringsAt_insert (record : Record) (field other : String) (value : Value) :
    stringsAt (record.insert field value) other =
      if other = field then value.asStrings else stringsAt record other := by
  by_cases same : other = field
  · subst same
    simp [stringsAt]
  · simp [stringsAt, same, AList.lookup_insert_ne same]

@[simp]
theorem stringAt_empty (field : String) : stringAt (∅ : Record) field = none := rfl

@[simp]
theorem stringsAt_empty (field : String) : stringsAt (∅ : Record) field = none := rfl

theorem lookup_dictionary (fields : List (String × String)) (field : String) :
    (dictionary fields).lookup field = (fields.lookup field).map Value.string := by
  simp only [dictionary, AList.lookup_to_alist]
  induction fields with
  | nil => rfl
  | cons first rest ih =>
      rcases first with ⟨name, text⟩
      by_cases same : field = name
      · subst same
        simp
      · have different : (field == name) = false := by simpa using same
        rw [List.map_cons, List.dlookup_cons_ne _ _ same, ih, List.lookup_cons, different]

theorem stringAt_dictionary (fields : List (String × String)) (field : String) :
    stringAt (dictionary fields) field = fields.lookup field := by
  rw [stringAt, lookup_dictionary]
  cases fields.lookup field <;> rfl

@[simp]
theorem stringsAt_dictionary (fields : List (String × String)) (field : String) :
    stringsAt (dictionary fields) field = none := by
  rw [stringsAt, lookup_dictionary]
  cases fields.lookup field <;> rfl

/-! ## Reading the database -/

def userRecord (db : Database) (uid : String) : Option Record :=
  (db firUsersNode).lookup uid

def itemRecord (db : Database) (itemId : String) : Option Record :=
  (db firItemsNode).lookup itemId

def usernameOf (db : Database) (uid : String) : Option String :=
  (userRecord db uid).bind fun user => stringAt user firUsernameNode

def emailOf (db : Database) (uid : String) : Option String :=
  (userRecord db uid).bind fun user => stringAt user firEmailNode

def friendListOf (db : Database) (uid : String) : Option (List String) :=
  (userRecord db uid).bind fun user => stringsAt user firFriendListNode

def itemListOf (db : Database) (uid : String) : Option (List String) :=
  (userRecord db uid).bind fun user => stringsAt user firItemListNode

/-- A record with all the fields that a finished sign-up has written. -/
structure CompleteUser (user : Record) : Prop where
  username : (stringAt user firUsernameNode).isSome
  email : (stringAt user firEmailNode).isSome
  friendList : ∃ friends, stringsAt user firFriendListNode = some friends ∧ friends ≠ []
  itemList : ∃ itemIds, stringsAt user firItemListNode = some itemIds ∧ itemIds ≠ []

/-- An entry of `items` with all four fields. -/
structure CompleteItem (item : Record) : Prop where
  itemName : (stringAt item firItemNameNode).isSome
  link : (stringAt item firLinkNode).isSome
  size : (stringAt item firSizeNode).isSome
  color : (stringAt item firColorNode).isSome

/-! ## Writes -/

/-- The writes of the app. The last two are `updateChildValues` calls with a single child. -/
inductive Write where
  | setItem (newItemId : String) (itemAttr : Record)
  | setUser (uid : String) (newUserData : Record)
  | setFriendList (uid : String) (friends : List String)
  | setItemList (uid : String) (itemList : List String)
  | updateFriendList (uid : String) (myFriendList : List String)
  | updateItemList (uid : String) (itemIds : List String)
  deriving DecidableEq

namespace Write

def apply (db : Database) : Write → Database
  | .setItem newItemId itemAttr => Store.setValue db "items" newItemId itemAttr
  | .setUser uid newUserData => Store.setValue db firUsersNode uid newUserData
  | .setFriendList uid friends =>
      Store.setChild db firUsersNode uid firFriendListNode (.strings friends)
  | .setItemList uid itemList =>
      Store.setChild db firUsersNode uid firItemListNode (.strings itemList)
  | .updateFriendList uid myFriendList =>
      Store.updateChildValues db "users" uid [("friendList", .strings myFriendList)]
  | .updateItemList uid itemIds =>
      Store.updateChildValues db "users" uid [("itemList", .strings itemIds)]

/-- Writes of one client take effect in the order in which they were issued. -/
def applyAll (db : Database) (writes : List Write) : Database :=
  writes.foldl apply db

/-- The friend list that a write stores, with the record it goes to. -/
def friendListWritten : Write → Option (String × List String)
  | .setFriendList uid friends | .updateFriendList uid friends => some (uid, friends)
  | _ => none

/-- The item list that a write stores, with the record it goes to. -/
def itemListWritten : Write → Option (String × List String)
  | .setItemList uid itemIds | .updateItemList uid itemIds => some (uid, itemIds)
  | _ => none

def itemWritten : Write → Option (String × Record)
  | .setItem newItemId itemAttr => some (newItemId, itemAttr)
  | _ => none

/-- The shape of the writes the controllers issue: an item comes with its four fields,
a profile has a username and an email and no lists, and no list is empty. -/
def WellFormed : Write → Prop
  | .setItem _ itemAttr => CompleteItem itemAttr
  | .setUser _ newUserData =>
      ((stringAt newUserData firUsernameNode).isSome ∧
        (stringAt newUserData firEmailNode).isSome) ∧
      stringsAt newUserData firFriendListNode = none ∧
        stringsAt newUserData firItemListNode = none
  | .setFriendList _ list | .setItemList _ list | .updateFriendList _ list
  | .updateItemList _ list => list ≠ []

end Write

section Effects

variable (db : Database)

@[simp]
theorem applyAll_nil : Write.applyAll db [] = db := rfl

@[simp]
theorem applyAll_cons (write : Write) (writes : List Write) :
    Write.applyAll db (write :: writes) = Write.applyAll (write.apply db) writes := rfl

theorem applyAll_append (first second : List Write) :
    Write.applyAll db (first ++ second) = Write.applyAll (Write.applyAll db first) second :=
  List.foldl_append

/-- A write to an item changes that entry only, and no other write changes `items`. -/
theorem itemRecord_apply (write : Write) (itemId : String) :
    itemRecord (write.apply db) itemId =
      match write with
      | .setItem newItemId itemAttr =>
          if itemId = newItemId then some itemAttr else itemRecord db itemId
      | _ => itemRecord db itemId := by
  cases write <;>
    simp [itemRecord, Write.apply, Store.lookup_setValue, Store.lookup_setChild, firItemsNode,
      firUsersNode]

/-- A write to a user record changes that record only, and item writes change none. -/
theorem userRecord_apply (write : Write) (user : String) :
    userRecord (write.apply db) user =
      match write with
      | .setItem _ _ => userRecord db user
      | .setUser uid newUserData =>
          if user = uid then some newUserData else userRecord db user
      | .setFriendList uid friends | .updateFriendList uid friends =>
          if user = uid then
            some (((userRecord db uid).getD ∅).insert firFriendListNode (.strings friends))
          else userRecord db user
      | .setItemList uid itemIds | .updateItemList uid itemIds =>
          if user = uid then
            some (((userRecord db uid).getD ∅).insert firItemListNode (.strings itemIds))
          else userRecord db user := by
  cases write <;>
    simp [userRecord, Write.apply, Store.lookup_setValue, Store.lookup_setChild, firUsersNode,
      firFriendListNode, firItemListNode]

theorem stringsAt_insert_getD (record : Option Record) (field other : String) (value : Value) :
    stringsAt ((record.getD ∅).insert field value) other =
      if other = field then value.asStrings
      else record.bind fun stored => stringsAt stored other := by
  rw [stringsAt_insert]
  cases record <;> rfl

theorem stringAt_insert_getD (record : Option Record) (field other : String) (value : Value) :
    stringAt ((record.getD ∅).insert field value) other =
      if other = field then value.asString
      else record.bind fun stored => stringAt stored other := by
  rw [stringAt_insert]
  cases record <;> rfl

theorem itemListOf_apply (write : Write) (user : String) :
    itemListOf (write.apply db) user =
      match write with
      | .setUser uid newUserData =>
          if user = uid then stringsAt newUserData firItemListNode else itemListOf db user
      | .setItemList uid itemIds | .updateItemList uid itemIds =>
          if user = uid then some itemIds else itemListOf db user
      | _ => itemListOf db user := by
  simp only [itemListOf, userRecord_apply]
  cases write <;> simp only
  all_goals
    split_ifs with same
    · subst same
      simp [stringsAt_insert_getD, Value.asStrings, firItemListNode, firFriendListNode]
    · rfl

theorem friendListOf_apply (write : Write) (user : String) :
    friendListOf (write.apply db) user =
      match write with
      | .setUser uid newUserData =>
          if user = uid then stringsAt newUserData firFriendListNode else friendListOf db user
      | .setFriendList uid friends | .updateFriendList uid friends =>
          if user = uid then some friends else friendListOf db user
      | _ => friendListOf db user := by
  simp only [friendListOf, userRecord_apply]
  cases write <;> simp only
  all_goals
    split_ifs with same
    · subst same
      simp [stringsAt_insert_getD, Value.asStrings, firItemListNode, firFriendListNode]
    · rfl

theorem emailOf_apply (write : Write) (user : String) :
    emailOf (write.apply db) user =
      match write with
      | .setUser uid newUserData =>
          if user = uid then stringAt newUserData firEmailNode else emailOf db user
      | _ => emailOf db user := by
  simp only [emailOf, userRecord_apply]
  cases write <;> simp only
  all_goals
    split_ifs with same
    · subst same
      simp [stringAt_insert_getD, firEmailNode, firItemListNode, firFriendListNode]
    · rfl

theorem usernameOf_apply (write : Write) (user : String) :
    usernameOf (write.apply db) user =
      match write with
      | .setUser uid newUserData =>
          if user = uid then stringAt newUserData firUsernameNode else usernameOf db user
      | _ => usernameOf db user := by
  simp only [usernameOf, userRecord_apply]
  cases write <;> simp only
  all_goals
    split_ifs with same
    · subst same
      simp [stringAt_insert_getD, firUsernameNode, firItemListNode, firFriendListNode]
    · rfl

variable {db} in
/-- A stored item list is one that the last write has stored, or was there before. -/
theorem itemListOf_apply_cases {write : Write} (wellFormed : write.WellFormed) {user : String}
    {itemIds : List String} (stored : itemListOf (write.apply db) user = some itemIds) :
    itemListOf db user = some itemIds ∨ write.itemListWritten = some (user, itemIds) := by
  rw [itemListOf_apply] at stored
  cases write with
  | setUser uid newUserData =>
      simp only at stored
      split_ifs at stored
      · simp [wellFormed.2.2] at stored
      · exact Or.inl stored
  | setItemList uid list | updateItemList uid list =>
      simp only at stored
      split_ifs at stored with same
      · simp only [Option.some.injEq] at stored
        exact Or.inr (by simp [Write.itemListWritten, same, stored])
      · exact Or.inl stored
  | _ => exact Or.inl stored

variable {db} in
theorem friendListOf_apply_cases {write : Write} (wellFormed : write.WellFormed) {user : String}
    {friends : List String} (stored : friendListOf (write.apply db) user = some friends) :
    friendListOf db user = some friends ∨ write.friendListWritten = some (user, friends) := by
  rw [friendListOf_apply] at stored
  cases write with
  | setUser uid newUserData =>
      simp only at stored
      split_ifs at stored
      · simp [wellFormed.2.1] at stored
      · exact Or.inl stored
  | setFriendList uid list | updateFriendList uid list =>
      simp only at stored
      split_ifs at stored with same
      · simp only [Option.some.injEq] at stored
        exact Or.inr (by simp [Write.friendListWritten, same, stored])
      · exact Or.inl stored
  | _ => exact Or.inl stored

end Effects

end PriceTracker
