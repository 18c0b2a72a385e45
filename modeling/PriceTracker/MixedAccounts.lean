import PriceTracker.SteadyAccounts
import Mathlib.Logic.Relation

/-!
# Lists across accounts

When an answer changes the current user under an open page, Save writes the list of one account
to the record of another one, and from there it may go on. This file says how far it can go, in
all runs and with no assumption on presses: two accounts share a client when the credentials of
both were entered there, and every id that is listed for a user was issued for an account that
is linked to it by a chain of shared clients. A user who shares no client keeps its list.
-/

namespace PriceTracker.App

variable {normalized : String → String} {s next : App} {event : Event}

/-- The account and the key of the item that an event issues. -/
def newItem (s : App) (event : Event) : Option (String × String) :=
  match s.systemEvent event with
  | some (.signUp _ uid newItemId _ _) => some (uid, newItemId)
  | some (.press page (.save _ newItemId)) =>
      (s.running page).bind fun opened =>
        (s.currentUser opened.client).map fun userID => (userID, newItemId)
  | _ => none

/-- An item was issued for the account under the key. -/
def Issued (history : List (App × Event)) (author key : String) : Prop :=
  ∃ taken ∈ history, taken.1.newItem taken.2 = some (author, key)

theorem Issued.concat {history : List (App × Event)} {author key : String}
    (issued : Issued history author key) (taken : App × Event) :
    Issued (history ++ [taken]) author key := by
  rcases issued with ⟨earlier, earlier_mem, isNew⟩
  exact ⟨earlier, List.mem_append_left _ earlier_mem, isNew⟩

theorem issued_concat_iff {history : List (App × Event)} {author key : String} :
    Issued (history ++ [(s, event)]) author key ↔
      Issued history author key ∨ s.newItem event = some (author, key) := by
  simp [Issued, or_and_right, exists_or]

/-! ## Keys -/

/-- Keys are issued once. -/
structure IssuedOnce (history : List (App × Event)) (s : App) : Prop where
  used : ∀ author key, Issued history author key → key ∈ s.keys
  once : ∀ author other key, Issued history author key → Issued history other key →
    author = other

theorem keys_step (stepped : s.step normalized event = some next) :
    s.keys ⊆ next.keys ∧ ∀ author key, s.newItem event = some (author, key) →
      key ∉ s.keys ∧ key ∈ next.keys := by
  cases effect_step stepped with
  | createdUser _ _ _ _ _ uid newItemId _ _ inSystem _ _ _ _ fresh isNext =>
      subst isNext
      refine ⟨List.subset_cons_self _ _, ?_⟩
      intro author key isNew
      simp only [newItem, inSystem, Option.some.injEq, Prod.mk.injEq] at isNew
      rcases isNew with ⟨rfl, rfl⟩
      exact ⟨fresh, List.mem_cons_self⟩
  | pressed page opened userID button _ _ inSystem isRunning isUser _ fresh isNext =>
      subst isNext
      refine ⟨List.subset_append_right _ _, ?_⟩
      intro author key isNew
      cases button with
      | save form newItemId =>
          simp only [newItem, inSystem, isRunning, isUser, Option.bind_some, Option.map_some,
            Option.some.injEq, Prod.mk.injEq] at isNew
          rcases isNew with ⟨rfl, rfl⟩
          exact ⟨fresh _ rfl, by simp [setPage, issue, Button.newKey]⟩
      | follow => simp [newItem, inSystem] at isNew
  | persisted _ _ _ isEvent _ isNext =>
      subst isEvent isNext
      exact ⟨List.Subset.refl _, by simp [newItem, systemEvent]⟩
  | stopped _ isEvent isNext =>
      subst isEvent isNext
      exact ⟨List.Subset.refl _, by simp [newItem, systemEvent]⟩
  | touched _ _ _ _ inSystem _ _ _ isNext | sent _ _ _ _ inSystem _ _ _ _ _ isNext
  | refused _ _ _ _ _ inSystem _ _ isNext | signedIn _ _ _ _ _ _ inSystem _ _ _ isNext
  | linked _ _ inSystem isNext | wentHome _ inSystem _ isNext
  | opened _ _ _ _ inSystem _ _ _ isNext | appeared _ _ _ inSystem _ _ isNext
  | delivered _ _ _ _ _ inSystem _ _ _ isNext =>
      subst isNext
      exact ⟨List.Subset.refl _, by simp [newItem, inSystem]⟩

theorem issuedOnce_step {history : List (App × Event)} (once : IssuedOnce history s)
    (stepped : s.step normalized event = some next) :
    IssuedOnce (history ++ [(s, event)]) next := by
  rcases keys_step stepped with ⟨grows, fresh⟩
  constructor
  · intro author key issued
    rcases issued_concat_iff.mp issued with old | isNew
    · exact grows (once.used author key old)
    · exact (fresh author key isNew).2
  · intro author other key issued issuedToo
    rcases issued_concat_iff.mp issued with old | isNew <;>
      rcases issued_concat_iff.mp issuedToo with oldToo | isNewToo
    · exact once.once author other key old oldToo
    · exact absurd (once.used author key old) (fresh other key isNewToo).1
    · exact absurd (once.used other key oldToo) (fresh author key isNew).1
    · simpa [isNew] using isNewToo

/-! ## Shared clients -/

section Links

variable (normalized) (history : List (App × Event)) (accounts : List AuthAccount)

/-- The credentials of both users were entered on one client. -/
def ShareClient (uid other : String) : Prop :=
  ∃ client, HasCredentials normalized history accounts client uid ∧
    HasCredentials normalized history accounts client other

/-- A chain of shared clients leads from one user to the other. -/
def Linked : String → String → Prop :=
  Relation.ReflTransGen (ShareClient normalized history accounts)

/-- The item was issued for an account that is linked to the user. -/
def IssuedNear (uid key : String) : Prop :=
  ∃ author, Issued history author key ∧ Linked normalized history accounts author uid

end Links

section Steps

variable {history : List (App × Event)}

theorem Linked.step {uid other : String} (linked : Linked normalized history s.accounts uid other)
    (stepped : s.step normalized event = some next) :
    Linked normalized (history ++ [(s, event)]) next.accounts uid other := by
  refine Relation.ReflTransGen.mono ?_ uid other linked
  rintro first second ⟨client, entered, enteredToo⟩
  exact ⟨client, entered.step stepped, enteredToo.step stepped⟩

theorem IssuedNear.step {uid key : String} (near : IssuedNear normalized history s.accounts uid key)
    (stepped : s.step normalized event = some next) :
    IssuedNear normalized (history ++ [(s, event)]) next.accounts uid key := by
  rcases near with ⟨author, issued, linked⟩
  exact ⟨author, issued.concat _, linked.step stepped⟩

/-- A user who shares a client with a user near the item is near it. -/
theorem IssuedNear.trans {accounts : List AuthAccount} {client : Nat} {uid other key : String}
    (near : IssuedNear normalized history accounts uid key)
    (entered : HasCredentials normalized history accounts client uid)
    (enteredToo : HasCredentials normalized history accounts client other) :
    IssuedNear normalized history accounts other key := by
  rcases near with ⟨author, issued, linked⟩
  exact ⟨author, issued, linked.tail ⟨client, entered, enteredToo⟩⟩

/-! ## Lists -/

/-- Every copy of a list holds ids of items that were issued near the user it is of, or near a user
of the client that shows it. Reads wait for users of their client. -/
structure ListsNear (normalized : String → String) (history : List (App × Event)) (s : App) :
    Prop where
  stored : ∀ uid itemIds, itemListOf s.db uid = some itemIds → ∀ key ∈ itemIds,
    IssuedNear normalized history s.accounts uid key
  queued : ∀ client, ∀ write ∈ s.queue client, write.WellFormed ∧
    ∀ uid itemIds, write.itemListWritten = some (uid, itemIds) → ∀ key ∈ itemIds,
      IssuedNear normalized history s.accounts uid key
  onPage : ∀ page opened, s.pages page = some opened → ∀ key ∈ opened.page.itemIds, ∃ uid,
    HasCredentials normalized history s.accounts opened.client uid ∧
      IssuedNear normalized history s.accounts uid key
  requested : ∀ page opened, s.pages page = some opened → ∀ read ∈ opened.pending,
    HasCredentials normalized history s.accounts opened.client read.2

theorem listsNear_initial : ListsNear normalized [] {} where
  stored := by simp [itemListOf, userRecord]
  queued := by simp
  onPage := by simp
  requested := by simp

theorem stored_step (near : ListsNear normalized history s)
    (stepped : s.step normalized event = some next) (uid : String) (itemIds : List String)
    (stored : itemListOf next.db uid = some itemIds) (key : String) (listed : key ∈ itemIds) :
    IssuedNear normalized (history ++ [(s, event)]) next.accounts uid key := by
  rcases db_step stepped with same | ⟨client, write, rest, _, queued, applied⟩
  · rw [same] at stored
    exact (near.stored uid itemIds stored key listed).step stepped
  · rw [applied] at stored
    rcases near.queued client write (by simp [queued]) with ⟨wellFormed, isNear⟩
    rcases itemListOf_apply_cases wellFormed stored with old | written
    · exact (near.stored uid itemIds old key listed).step stepped
    · exact (isNear uid itemIds written key listed).step stepped

theorem queued_step (entered : CredentialsEntered normalized history s)
    (near : ListsNear normalized history s) (stepped : s.step normalized event = some next)
    (client : Nat) (write : Write) (waiting : write ∈ next.queue client) :
    write.WellFormed ∧ ∀ uid itemIds, write.itemListWritten = some (uid, itemIds) →
      ∀ key ∈ itemIds,
        IssuedNear normalized (history ++ [(s, event)]) next.accounts uid key := by
  have kept : write ∈ s.queue client → write.WellFormed ∧
      ∀ uid itemIds, write.itemListWritten = some (uid, itemIds) → ∀ key ∈ itemIds,
        IssuedNear normalized (history ++ [(s, event)]) next.accounts uid key := by
    intro old
    rcases near.queued client write old with ⟨wellFormed, isNear⟩
    refine ⟨wellFormed, ?_⟩
    intro uid itemIds written key listed
    exact (isNear uid itemIds written key listed).step stepped
  -- an item that the step issues is near the current user
  have isNew : ∀ uid key, s.newItem event = some (uid, key) →
      IssuedNear normalized (history ++ [(s, event)]) next.accounts uid key := by
    intro uid key issues
    exact ⟨uid, issued_concat_iff.mpr (Or.inr issues), .refl⟩
  cases effect_step stepped with
  | createdUser other index before after request uid newItemId userName userEmail inSystem _ _ _ _
      _ isNext =>
      subst isNext
      simp only [setAuthPage, issue, Function.update_apply] at waiting
      split_ifs at waiting with same
      · subst same
        rcases List.mem_append.mp waiting with old | issued
        · exact kept old
        · refine ⟨wellFormed_signUpWrites _ _ _ _ write issued, ?_⟩
          intro owner itemIds written key listed
          simp only [signUpWrites, List.mem_cons, List.not_mem_nil, or_false] at issued
          rcases issued with rfl | rfl | rfl | rfl <;>
            simp only [Write.itemListWritten, reduceCtorEq, Option.some.injEq,
              Prod.mk.injEq] at written
          rcases written with ⟨rfl, rfl⟩
          rw [List.mem_singleton.mp listed]
          exact isNew uid newItemId (by simp [newItem, inSystem])
      · exact kept waiting
  | pressed page opened userID button after writes inSystem isRunning isUser hasButton _ isNext =>
      subst isNext
      simp only [setPage, issue, Function.update_apply] at waiting
      split_ifs at waiting with same
      · subst same
        rcases List.mem_append.mp waiting with old | issued
        · exact kept old
        cases button with
        | save form newItemId =>
            rcases (Page.press_save hasButton).2.2 with ⟨itemAttr, complete, rfl⟩
            simp only [List.mem_cons, List.not_mem_nil, or_false] at issued
            rcases issued with rfl | rfl
            · exact ⟨complete, by simp [Write.itemListWritten]⟩
            · refine ⟨by simp [Write.WellFormed], ?_⟩
              intro owner itemIds written key listed
              simp only [Write.itemListWritten, Option.some.injEq, Prod.mk.injEq] at written
              rcases written with ⟨rfl, rfl⟩
              rcases List.mem_append.mp listed with old | isLast
              · -- the list of the page goes to the current user, who shares the client
                rcases near.onPage page opened (running_eq_some_iff.mp isRunning).1 key old with
                  ⟨uid, shown, isNear⟩
                exact (isNear.trans shown (entered.current _ _ isUser)).step stepped
              · rw [List.mem_singleton.mp isLast]
                exact isNew userID newItemId (by simp [newItem, inSystem, isRunning, isUser])
        | follow =>
            rcases (Page.press_follow hasButton).2.2 with ⟨_, _, rfl⟩ | ⟨_, _, rfl⟩
            · simp at issued
            · simp only [List.mem_singleton] at issued
              subst issued
              exact ⟨by simp [Write.WellFormed], by simp [Write.itemListWritten]⟩
      · exact kept waiting
  | persisted other first rest _ queued isNext =>
      subst isNext
      simp only [Function.update_apply] at waiting
      split_ifs at waiting with same
      · subst same
        exact kept (by simp [queued, waiting])
      · exact kept waiting
  | stopped other _ isNext =>
      subst isNext
      simp only [Function.update_apply] at waiting
      split_ifs at waiting with same
      · simp at waiting
      · exact kept waiting
  | _ =>
      rename_i isNext
      subst isNext
      exact kept waiting

/-- What a page has taken from the database was near the user for whom it was requested. -/
theorem itemIds_deliver (near : ListsNear normalized history s) {page : Nat} {opened : OpenPage}
    (isPage : s.pages page = some opened) {callback : Callback} {userID : String}
    {snapshot : Collection} (requested : (callback, userID) ∈ opened.pending)
    (taken : Store.IsSnapshot snapshot (s.db callback.node)) {key : String}
    (shown : key ∈ (opened.deliver callback userID snapshot).page.itemIds) :
    ∃ uid, HasCredentials normalized history s.accounts opened.client uid ∧
      IssuedNear normalized history s.accounts uid key := by
  unfold OpenPage.deliver at shown
  cases ran : opened.page.callback userID snapshot callback with
  | none =>
      rw [ran] at shown
      exact near.onPage page opened isPage key shown
  | some after =>
      rw [ran] at shown
      rcases Page.itemIds_callback ran with same | ⟨isUsers, user, found, list⟩
      · exact near.onPage page opened isPage key (same ▸ shown)
      · rw [taken.lookup, isUsers] at found
        refine ⟨userID, near.requested page opened isPage _ requested,
          near.stored userID after.itemIds ?_ key shown⟩
        rw [itemListOf, userRecord, found, Option.bind_some, list]

theorem page_step (entered : CredentialsEntered normalized history s)
    (near : ListsNear normalized history s) (stepped : s.step normalized event = some next)
    (page : Nat) (found : OpenPage) (isPage : next.pages page = some found) :
    (∀ key ∈ found.page.itemIds, ∃ uid,
      HasCredentials normalized (history ++ [(s, event)]) next.accounts found.client uid ∧
        IssuedNear normalized (history ++ [(s, event)]) next.accounts uid key) ∧
    ∀ read ∈ found.pending,
      HasCredentials normalized (history ++ [(s, event)]) next.accounts found.client read.2 := by
  have shownLater : ∀ {client key}, (∃ uid,
        HasCredentials normalized history s.accounts client uid ∧
          IssuedNear normalized history s.accounts uid key) →
      ∃ uid, HasCredentials normalized (history ++ [(s, event)]) next.accounts client uid ∧
        IssuedNear normalized (history ++ [(s, event)]) next.accounts uid key := by
    rintro client key ⟨uid, shown, isNear⟩
    exact ⟨uid, shown.step stepped, isNear.step stepped⟩
  have kept : ∀ {page opened}, s.pages page = some opened →
      (∀ key ∈ opened.page.itemIds, ∃ uid,
        HasCredentials normalized (history ++ [(s, event)]) next.accounts opened.client uid ∧
          IssuedNear normalized (history ++ [(s, event)]) next.accounts uid key) ∧
      ∀ read ∈ opened.pending,
        HasCredentials normalized (history ++ [(s, event)]) next.accounts opened.client
          read.2 := by
    intro page opened wasPage
    refine ⟨?_, ?_⟩
    · intro key shown
      exact shownLater (near.onPage page opened wasPage key shown)
    · intro read read_mem
      exact (near.requested page opened wasPage read read_mem).step stepped
  cases effect_step stepped with
  | opened other client screen userID _ _ _ isUser isNext =>
      subst isNext
      rcases pages_setPage isPage with ⟨rfl, rfl⟩ | old
      · refine ⟨by simp [(Page.lists_viewDidLoad screen).1], ?_⟩
        intro read read_mem
        rcases List.mem_map.mp read_mem with ⟨callback, _, rfl⟩
        exact (entered.current client userID isUser).step stepped
      · exact kept old
  | appeared other opened userID _ isRunning isUser isNext =>
      subst isNext
      rcases pages_setPage isPage with ⟨rfl, rfl⟩ | old
      · rcases kept (running_eq_some_iff.mp isRunning).1 with ⟨shown, requested⟩
        refine ⟨shown, ?_⟩
        intro read read_mem
        rcases List.mem_append.mp read_mem with old | isNew
        · exact requested read old
        · rcases List.mem_map.mp isNew with ⟨callback, _, rfl⟩
          exact (entered.current opened.client userID isUser).step stepped
      · exact kept old
  | delivered other opened callback userID snapshot _ isRunning requested taken isNext =>
      subst isNext
      rcases pages_setPage isPage with ⟨rfl, rfl⟩ | old
      · have wasPage := (running_eq_some_iff.mp isRunning).1
        rw [client_deliver]
        refine ⟨?_, ?_⟩
        · intro key shown
          exact shownLater (itemIds_deliver near wasPage requested taken shown)
        · intro read read_mem
          apply (kept wasPage).2 read
          unfold OpenPage.deliver at read_mem
          cases ran : opened.page.callback userID snapshot callback <;> rw [ran] at read_mem <;>
            exact List.mem_of_mem_erase read_mem
      · exact kept old
  | pressed other opened userID button after writes inSystem isRunning isUser hasButton _ isNext =>
      subst isNext
      rcases pages_setPage isPage with ⟨rfl, rfl⟩ | old
      · rcases kept (running_eq_some_iff.mp isRunning).1 with ⟨shown, requested⟩
        refine ⟨?_, requested⟩
        cases button with
        | save form newItemId =>
            intro key isShown
            rw [(Page.press_save hasButton).1] at isShown
            rcases List.mem_append.mp isShown with old | isLast
            · exact shown key old
            · rw [List.mem_singleton.mp isLast]
              refine ⟨userID, (entered.current opened.client userID isUser).step stepped, userID,
                issued_concat_iff.mpr (Or.inr ?_), .refl⟩
              simp [newItem, inSystem, isRunning, isUser]
        | follow =>
            rw [(Page.press_follow hasButton).1]
            exact shown
      · exact kept old
  | stopped client _ isNext =>
      subst isNext
      rcases Option.map_eq_some_iff.mp isPage with ⟨opened, wasPage, rfl⟩
      unfold OpenPage.stop
      split_ifs
      · exact ⟨(kept wasPage).1, (kept wasPage).2⟩
      · exact kept wasPage
  | _ =>
      rename_i isNext
      subst isNext
      exact kept isPage

theorem listsNear_step (entered : CredentialsEntered normalized history s)
    (near : ListsNear normalized history s) (stepped : s.step normalized event = some next) :
    ListsNear normalized (history ++ [(s, event)]) next where
  stored := stored_step near stepped
  queued := queued_step entered near stepped
  onPage page found isPage := (page_step entered near stepped page found isPage).1
  requested page found isPage := (page_step entered near stepped page found isPage).2

end Steps

theorem listsNear_run {events : List Event}
    (reached : Machine.run (step normalized) {} events = some s) :
    ListsNear normalized (Machine.trace (step normalized) {} events) s := by
  refine Machine.run_induction (motive := fun events s =>
    ListsNear normalized (Machine.trace (step normalized) {} events) s) listsNear_initial ?_ reached
  intro events state event next toState near stepped
  rw [Machine.trace_concat toState]
  exact listsNear_step (credentialsEntered_run toState) near stepped

theorem issuedOnce_run {events : List Event}
    (reached : Machine.run (step normalized) {} events = some s) :
    IssuedOnce (Machine.trace (step normalized) {} events) s := by
  refine Machine.run_induction (motive := fun events s =>
    IssuedOnce (Machine.trace (step normalized) {} events) s) ?_ ?_ reached
  · exact ⟨by simp [Issued], by simp [Issued]⟩
  · intro events state event next toState once stepped
    rw [Machine.trace_concat toState]
    exact issuedOnce_step once stepped

/-- A user shares no client: wherever its credentials were entered, no others were. -/
def KeepsClients (normalized : String → String) (history : List (App × Event))
    (accounts : List AuthAccount) (uid : String) : Prop :=
  ∀ client other, HasCredentials normalized history accounts client uid →
    HasCredentials normalized history accounts client other → other = uid

theorem KeepsClients.eq_of_linked {history : List (App × Event)} {accounts : List AuthAccount}
    {author uid : String} (keeps : KeepsClients normalized history accounts uid)
    (linked : Linked normalized history accounts author uid) : author = uid := by
  induction linked using Relation.ReflTransGen.head_induction_on with
  | refl => rfl
  | head shares _ ih =>
      subst ih
      rcases shares with ⟨client, entered, enteredToo⟩
      exact keeps client _ enteredToo entered

/-- In every run of the app, with answers to log-ins and sign-ups at any time and whatever is open
then, every id in the item list of a user was issued for one account only, which is linked to
the user by clients on which the credentials of two users were entered. If the user shares no
client, it is the user. -/
theorem listedItems_linked {events : List Event}
    (reached : Machine.run (step normalized) {} events = some s) {uid : String}
    {itemIds : List String} (stored : itemListOf s.db uid = some itemIds) {key : String}
    (listed : key ∈ itemIds) :
    ∃ author, (∀ other, Issued (Machine.trace (step normalized) {} events) other key ↔
        other = author) ∧
      Linked normalized (Machine.trace (step normalized) {} events) s.accounts author uid ∧
      (KeepsClients normalized (Machine.trace (step normalized) {} events) s.accounts uid →
        author = uid) := by
  rcases (listsNear_run reached).stored uid itemIds stored key listed with ⟨author, issued, linked⟩
  refine ⟨author, ?_, linked, fun keeps => keeps.eq_of_linked linked⟩
  intro other
  constructor
  · intro issuedToo
    exact (issuedOnce_run reached).once other author key issuedToo issued
  · rintro rfl
    exact issued

/-- In the run with the late answer, both items in the list of `bob` come from linked accounts. -/
theorem listedItems_lateAnswer :
    let s := (Machine.run (step id) {} lateAnswer).get (by decide)
    ∃ author, (∀ other, Issued (Machine.trace (step id) {} lateAnswer) other "shoes1" ↔
        other = author) ∧
      Linked id (Machine.trace (step id) {} lateAnswer) s.accounts author "bob" ∧
      (KeepsClients id (Machine.trace (step id) {} lateAnswer) s.accounts "bob" →
        author = "bob") := by
  intro s
  have stored : itemListOf s.db "bob" = some ["shoes1", "hat"] := by decide
  exact listedItems_linked (Option.some_get _).symm stored (by simp)

end PriceTracker.App
