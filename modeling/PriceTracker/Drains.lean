import PriceTracker.Provenance
import PriceTracker.Library.Interleaving

/-!
# The order of waiting writes

The writes of different clients may take effect in any order between each other. When no account is
used on two clients, this order does not matter: the waiting writes to a user record belong to one
client, and an item key is written once. So all ways to bring everything that waits into effect
leave the same users and the same items.
-/

namespace PriceTracker

open Interleaving

/-- The write changes the record of the user. -/
def Write.changesUser (uid : String) (write : Write) : Bool :=
  write.owner = some uid

/-- The write brings the item. -/
def Write.bringsItem (itemId : String) (write : Write) : Bool :=
  write.itemWritten.map Prod.fst = some itemId

theorem viewOf_userRecord (uid : String) :
    ViewOf Write.apply (fun db => userRecord db uid) (Write.changesUser uid) where
  determined := by
    intro first second write same
    simp only [userRecord_apply]
    cases write with
    | setItem newItemId itemAttr => exact same
    | setUser owner newUserData | setFriendList owner list | setItemList owner list
    | updateFriendList owner list | updateItemList owner list =>
        by_cases isOwner : uid = owner
        · subst isOwner
          simp [same]
        · simp [isOwner, same]
  untouched := by
    intro db write otherUser
    by_contra changed
    simp [Write.changesUser, owner_of_changed changed] at otherUser

theorem viewOf_itemRecord (itemId : String) :
    ViewOf Write.apply (fun db => itemRecord db itemId) (Write.bringsItem itemId) where
  determined := by
    intro first second write same
    simp only [itemRecord_apply]
    cases write with
    | setItem newItemId itemAttr => simp [same]
    | _ => exact same
  untouched := by
    intro db write otherItem
    rw [itemRecord_apply]
    cases write with
    | setItem newItemId itemAttr =>
        have different : itemId ≠ newItemId := by
          rintro rfl
          simp [Write.bringsItem, Write.itemWritten] at otherItem
        simp [different]
    | _ => rfl

namespace System

variable {s : System}

/-- No account is used on two clients. -/
def UsedAlone (events : List Event) : Prop :=
  ∀ uid client other, UsedOn events client uid → UsedOn events other uid → client = other

/-- Writes that take effect one after the other are an interleaving of the queues. -/
theorem merges_of_run {clients : List Nat} {drained : System}
    (reached : Machine.run step s (clients.map .persist) = some drained)
    (empty : ∀ client, drained.queue client = []) :
    ∃ writes, Merges s.queue writes ∧ drained.db = Write.applyAll s.db writes := by
  induction clients generalizing s with
  | nil =>
      simp only [List.map_nil, Machine.run_nil, Option.some.injEq] at reached
      subst reached
      exact ⟨[], .nil empty, rfl⟩
  | cons client clients ih =>
      rw [List.map_cons, Machine.run_cons] at reached
      rcases Option.bind_eq_some_iff.mp reached with ⟨next, stepped, rest⟩
      rcases step_persist stepped with ⟨write, later, queued, rfl⟩
      rcases ih rest with ⟨writes, merges, stored⟩
      exact ⟨write :: writes, .cons queued merges, stored⟩

theorem filter_changesUser_eq_nil {events : List Event}
    (acts : s.ClientsAct events) (alone : UsedAlone events) (uid : String) :
    ∃ owner, ∀ client, client ≠ owner → (s.queue client).filter (Write.changesUser uid) = [] := by
  by_cases used : ∃ owner, UsedOn events owner uid
  · rcases used with ⟨owner, usedOn⟩
    refine ⟨owner, ?_⟩
    intro client different
    rw [List.filter_eq_nil_iff]
    intro write waiting changes
    apply different
    exact alone uid client owner
      (acts.queued client write waiting uid (by simpa [Write.changesUser] using changes)) usedOn
  · refine ⟨0, ?_⟩
    intro client _
    rw [List.filter_eq_nil_iff]
    intro write waiting changes
    exact used ⟨client,
      acts.queued client write waiting uid (by simpa [Write.changesUser] using changes)⟩

theorem filter_bringsItem_eq_nil (fresh : s.NewItemsFresh) (itemId : String) :
    ∃ owner, ∀ client, client ≠ owner → (s.queue client).filter (Write.bringsItem itemId) = [] := by
  have isWritten : ∀ {client : Nat} {write : Write}, write ∈ s.queue client →
      write.bringsItem itemId = true → itemId ∈ itemIdsWritten (s.queue client) := by
    intro client write waiting brings
    exact List.mem_filterMap.mpr ⟨write, waiting, by simpa [Write.bringsItem] using brings⟩
  by_cases waits : ∃ owner, itemId ∈ itemIdsWritten (s.queue owner)
  · rcases waits with ⟨owner, owned⟩
    refine ⟨owner, ?_⟩
    intro client different
    rw [List.filter_eq_nil_iff]
    intro write waiting brings
    exact fresh.disjoint client owner different (isWritten waiting brings) owned
  · refine ⟨0, ?_⟩
    intro client _
    rw [List.filter_eq_nil_iff]
    intro write waiting brings
    exact waits ⟨client, isWritten waiting brings⟩

/-- In every run in which no account is used on two clients, all orders in which the waiting writes
of the clients may take effect leave the same user records and the same items. -/
theorem drains_agree {events : List Event} (reached : Machine.run step {} events = some s)
    (alone : UsedAlone events) {first second : List Nat} {one other : System}
    (toOne : Machine.run step s (first.map .persist) = some one)
    (oneEmpty : ∀ client, one.queue client = [])
    (toOther : Machine.run step s (second.map .persist) = some other)
    (otherEmpty : ∀ client, other.queue client = []) :
    (∀ uid, userRecord one.db uid = userRecord other.db uid) ∧
      ∀ itemId, itemRecord one.db itemId = itemRecord other.db itemId := by
  rcases merges_of_run toOne oneEmpty with ⟨writes, mergesOne, storedOne⟩
  rcases merges_of_run toOther otherEmpty with ⟨otherWrites, mergesOther, storedOther⟩
  rw [storedOne, storedOther]
  constructor
  · intro uid
    rcases filter_changesUser_eq_nil (clientsAct_run reached) alone uid with ⟨owner, others⟩
    exact (viewOf_userRecord uid).agree mergesOne mergesOther others s.db
  · intro itemId
    rcases filter_bringsItem_eq_nil (newItemsFresh_run reached) itemId with ⟨owner, others⟩
    exact (viewOf_itemRecord itemId).agree mergesOne mergesOther others s.db

/-- The writes of two sign-ups wait on two clients. -/
def signUpsWait : List Event :=
  [.signUp 0 "ann" "shoes1" "Ann" "ann@example.com", .signUp 1 "bob" "shoes2" "Bob" "bob@example.com"]

theorem drains_agree_signUpsWait :
    let s := (Machine.run step {} signUpsWait).get (by decide)
    let one := (Machine.run step s ([0, 0, 0, 0, 1, 1, 1, 1].map .persist)).get (by decide)
    let other := (Machine.run step s ([1, 0, 1, 1, 0, 0, 1, 0].map .persist)).get (by decide)
    (∀ uid, userRecord one.db uid = userRecord other.db uid) ∧
      ∀ itemId, itemRecord one.db itemId = itemRecord other.db itemId := by
  intro s one other
  have alone : UsedAlone signUpsWait := by
    intro uid client other used usedOther
    simp only [UsedOn, signUpsWait, List.mem_cons, Event.signUp.injEq, List.not_mem_nil, or_false,
      reduceCtorEq, exists_false] at used usedOther
    rcases used with ⟨_, _, _, ⟨rfl, rfl, _⟩ | ⟨rfl, rfl, _⟩⟩ <;>
      rcases usedOther with ⟨_, _, _, ⟨rfl, same, _⟩ | ⟨rfl, same, _⟩⟩ <;>
      simp at same ⊢
  have oneEmpty : ∀ client, one.queue client = [] := by
    intro client
    match client with
    | 0 => rfl
    | 1 => rfl
    | client + 2 => rfl
  have otherEmpty : ∀ client, other.queue client = [] := by
    intro client
    match client with
    | 0 => rfl
    | 1 => rfl
    | client + 2 => rfl
  exact drains_agree (Option.some_get _).symm alone (Option.some_get _).symm oneEmpty
    (Option.some_get _).symm otherEmpty

end System

end PriceTracker
