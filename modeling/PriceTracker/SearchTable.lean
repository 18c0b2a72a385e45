import PriceTracker.Refresh
import PriceTracker.SearchText

/-!
# The table of the search

`PeopleSearchVC` reloads its table at once whenever it replaces the list that the table shows: when
the emails arrive, and on every change of the text. So, unlike the tables that queue their reloads,
this one never asks for a row that is not there. And since emails stay, a tapped row leads to a
page that finds a user with the email of the row, whenever its read of the users succeeds.
-/

namespace PriceTracker

/-- A search page with its table, and the app with the shared database. -/
structure SearchTable where
  system : System
  page : SearchPage := {}
  /-- The rows of the page at the last `reloadData`. -/
  rowCount : Nat := 0

namespace SearchTable

inductive Event where
  | textDidChange (searchText : String)
  /-- The read that `viewDidLoad` has requested is delivered. -/
  | getUserEmails (snapshot : Collection)
  | cellForRowAt (row : Nat)
  | didSelectRowAt (row : Nat)
  /-- Something else happens in the app. -/
  | elsewhere (event : PriceTracker.Event)

def reloadData (table : SearchTable) : SearchTable :=
  { table with rowCount := table.page.vc.numberOfRows }

variable (lowercased : String → String) (contains : String → String → Bool)

def step (table : SearchTable) : Event → Option SearchTable
  | .textDidChange searchText =>
      (table.page.step lowercased contains (.textDidChange searchText)).map fun page =>
        { table with page }.reloadData
  | .getUserEmails snapshot =>
      if Store.IsSnapshot snapshot (table.system.db firUsersNode) then
        (table.page.step lowercased contains (.getUserEmails snapshot)).map fun page =>
          if snapshotExists snapshot then { table with page }.reloadData else { table with page }
      else none
  | .cellForRowAt row =>
      if row < table.rowCount then (table.page.vc.cellForRowAt row).map fun _ => table else none
  | .didSelectRowAt row =>
      if row < table.rowCount then
        (table.page.vc.didSelectRowAt row).map fun vc => { table with page := { table.page with vc } }
      else none
  | .elsewhere event => (table.system.step event).map fun system => { table with system }

/-- The table counts the rows of the list, and shows only emails that are stored. -/
structure RowsStored (table : SearchTable) : Prop where
  counted : table.rowCount = table.page.vc.numberOfRows
  listed : table.page.vc.currentResults ⊆ table.page.vc.results
  stored : ∀ email ∈ table.page.vc.results, ∃ uid, emailOf table.system.db uid = some email

/-- A tap on the row opens a page that finds a user with the email of the row, when its read of the
users succeeds. -/
def OpensRow (table : SearchTable) (db : Database) (row : Nat) : Prop :=
  ∃ email tapped, table.page.vc.cellForRowAt row = some email ∧
    table.page.vc.didSelectRowAt row = some tapped ∧
    ∀ snapshot opened, Store.IsSnapshot snapshot (db firUsersNode) →
      tapped.prepare.viewDidLoad.getUserInfo snapshot = some opened →
      opened.userEmail = email ∧ emailOf db opened.friendID = some email ∧
        usernameOf db opened.friendID = some opened.username

variable {lowercased contains}

theorem searched_subset (results : List String) (searchText : String) :
    PeopleSearchVC.searched lowercased contains results searchText ⊆ results := by
  unfold PeopleSearchVC.searched
  split_ifs
  · exact List.Subset.refl _
  · exact List.filter_subset_self _

theorem rowsStored_step {table next : SearchTable} {event : Event} {before : List PriceTracker.Event}
    (toSystem : Machine.run System.step {} before = some table.system) (rows : table.RowsStored)
    (stepped : table.step lowercased contains event = some next) : next.RowsStored := by
  cases event with
  | textDidChange searchText =>
      simp only [step, SearchPage.step, Option.map_some, Option.some.injEq] at stepped
      subst stepped
      exact ⟨rfl, searched_subset _ _, rows.stored⟩
  | getUserEmails snapshot =>
      simp only [step, SearchPage.step, Option.ite_none_right_eq_some] at stepped
      rcases stepped with ⟨taken, stepped⟩
      rcases Option.map_eq_some_iff.mp stepped with ⟨page, loaded, same⟩
      simp only [Option.ite_none_right_eq_some, Option.map_eq_some_iff] at loaded
      rcases loaded with ⟨_, vc, read, rfl⟩
      split_ifs at same with present
      · subst same
        have shown : vc.currentResults = vc.results := by
          rcases (PeopleSearchVC.getUserEmails_eq_some_iff present).mp read with ⟨userEmails, _, rfl⟩
          rfl
        refine ⟨rfl, by simp [reloadData, shown], ?_⟩
        intro email isLoaded
        exact PeopleSearchVC.stored_getUserEmails taken present read isLoaded
      · subst same
        have unchanged : vc = table.page.vc := by
          simpa [PeopleSearchVC.getUserEmails, present] using read.symm
        rw [unchanged]
        exact ⟨rows.counted, rows.listed, rows.stored⟩
  | cellForRowAt row =>
      simp only [step, Option.ite_none_right_eq_some, Option.map_eq_some_iff] at stepped
      rcases stepped with ⟨_, label, _, rfl⟩
      exact rows
  | didSelectRowAt row =>
      simp only [step, Option.ite_none_right_eq_some, Option.map_eq_some_iff] at stepped
      rcases stepped with ⟨_, vc, tapped, rfl⟩
      rcases Option.map_eq_some_iff.mp tapped with ⟨email, _, rfl⟩
      exact ⟨rows.counted, rows.listed, rows.stored⟩
  | elsewhere event =>
      rcases Option.map_eq_some_iff.mp stepped with ⟨system, taken, rfl⟩
      refine ⟨rows.counted, rows.listed, ?_⟩
      intro email shown
      rcases rows.stored email shown with ⟨uid, stored⟩
      have single : Machine.run System.step table.system [event] = some system := by simp [taken]
      exact ⟨uid, (System.textsKept_run toSystem single).email uid _ stored⟩

/-- The app under the table is in a state that it can reach. -/
theorem exists_run_step {table next : SearchTable} {event : Event} {before : List PriceTracker.Event}
    (toSystem : Machine.run System.step {} before = some table.system)
    (stepped : table.step lowercased contains event = some next) :
    ∃ after, Machine.run System.step {} after = some next.system := by
  cases event with
  | elsewhere event =>
      rcases Option.map_eq_some_iff.mp stepped with ⟨system, taken, rfl⟩
      exact ⟨before ++ [event], (Machine.run_concat toSystem event).trans taken⟩
  | textDidChange searchText =>
      simp only [step, SearchPage.step, Option.map_some, Option.some.injEq] at stepped
      subst stepped
      exact ⟨before, toSystem⟩
  | getUserEmails snapshot =>
      simp only [step, Option.ite_none_right_eq_some, Option.map_eq_some_iff] at stepped
      rcases stepped with ⟨_, page, _, rfl⟩
      refine ⟨before, ?_⟩
      split_ifs <;> exact toSystem
  | cellForRowAt row | didSelectRowAt row =>
      simp only [step, Option.ite_none_right_eq_some, Option.map_eq_some_iff] at stepped
      rcases stepped with ⟨_, _, _, rfl⟩
      exact ⟨before, toSystem⟩

theorem rowsStored_run {before : List PriceTracker.Event} {system : System}
    (toSystem : Machine.run System.step {} before = some system) {events : List Event}
    {table : SearchTable}
    (reached : Machine.run (step lowercased contains) { system } events = some table) :
    table.RowsStored ∧ ∃ after, Machine.run System.step {} after = some table.system := by
  refine Machine.run_induction (motive := fun _ table =>
    table.RowsStored ∧ ∃ after, Machine.run System.step {} after = some table.system) ?_ ?_ reached
  · exact ⟨⟨rfl, List.Subset.refl _, by simp⟩, before, toSystem⟩
  · rintro events table event next _ ⟨rows, after, toTable⟩ stepped
    exact ⟨rowsStored_step toTable rows stepped, exists_run_step toTable stepped⟩

/-- The page of an email that some user has shows a user with that email. -/
theorem shows_of_stored {db : Database} {vc next : UserCopyVC} {uid : String}
    {snapshot : Collection} (taken : Store.IsSnapshot snapshot (db firUsersNode))
    (stored : emailOf db uid = some vc.userEmail) (read : vc.getUserInfo snapshot = some next) :
    emailOf db next.friendID = some vc.userEmail ∧
      usernameOf db next.friendID = some next.username := by
  rcases Option.bind_eq_some_iff.mp stored with ⟨user, isUser, hasEmail⟩
  have found : snapshot.lookup uid = some user := taken.lookup uid ▸ isUser
  rcases UserCopyVC.shows_getUserInfo read with ⟨_, notShown⟩ | ⟨other, isOther, shows⟩
  · exact absurd hasEmail (notShown uid user found)
  · rw [taken.lookup] at isOther
    have otherStored : userRecord db next.friendID = some other := isOther
    have sameEmail := shows.email
    rw [(UserCopyVC.infoFrom_getUserInfo read).userEmail] at sameEmail
    exact ⟨by simp [emailOf, otherStored, sameEmail],
      by simp [usernameOf, otherStored, shows.username]⟩

/-- In every run of a search page with its table, next to any other steps of the app and for any
text functions, all rows that the table counts are in range, and a tap on one opens a page that finds
a user with the email of the row in every later state in which its read succeeds. -/
theorem rows_open {before : List PriceTracker.Event} {system : System}
    (toSystem : Machine.run System.step {} before = some system) {events : List Event}
    {table : SearchTable}
    (reached : Machine.run (step lowercased contains) { system } events = some table)
    {later : List PriceTracker.Event} {s : System}
    (toLater : Machine.run System.step table.system later = some s) :
    table.rowCount = table.page.vc.numberOfRows ∧ ∀ row < table.rowCount, table.OpensRow s.db row := by
  rcases rowsStored_run toSystem reached with ⟨rows, after, toTable⟩
  refine ⟨rows.counted, ?_⟩
  intro row inTable
  have inRange : row < table.page.vc.currentResults.length := by
    rw [← PeopleSearchVC.numberOfRows, ← rows.counted]
    exact inTable
  have atRow := List.getElem?_eq_getElem inRange
  refine ⟨_, { table.page.vc with emailToSend := table.page.vc.currentResults[row] }, atRow, ?_, ?_⟩
  · simp [PeopleSearchVC.didSelectRowAt, atRow]
  · intro snapshot opened taken read
    rcases rows.stored _ (rows.listed (List.getElem_mem inRange)) with ⟨uid, stored⟩
    have shown := shows_of_stored taken
      ((System.textsKept_run toTable toLater).email _ _ stored) read
    exact ⟨(UserCopyVC.infoFrom_getUserInfo read).userEmail, shown⟩

/-- The emails of both users arrive while a text is in the search bar, and then the text changes. -/
def typeAroundLoad (users : Collection) : List Event :=
  [.textDidChange "Bo", .getUserEmails users, .textDidChange "A", .cellForRowAt 0]

theorem rows_open_typeAroundLoad :
    let system := (Machine.run System.step {} System.saveAndFollow).get (by decide)
    let table := (Machine.run (step SearchPage.asciiLowercased SearchPage.asciiContains) { system }
      (typeAroundLoad (system.db firUsersNode))).get (by decide +kernel)
    let s := (Machine.run System.step table.system
      [.signUp 2 "cat" "shoes3" "Cat" "cat@example.com", .persist 2, .persist 2]).get (by decide +kernel)
    table.rowCount = table.page.vc.numberOfRows ∧
      ∀ row < table.rowCount, table.OpensRow s.db row :=
  rows_open (Option.some_get _).symm (Option.some_get _).symm (Option.some_get _).symm

end SearchTable

end PriceTracker
