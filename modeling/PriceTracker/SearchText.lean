import PriceTracker.Controllers.People
import PriceTracker.Library.Machine
import Mathlib.Data.List.Infix

/-!
# The search text and the search list

The search page requests the emails once and filters them whenever the text changes. The
callback of that read shows all emails, whatever the text is by then, so the list matches
the text in every state exactly when the text keeps all the emails that arrive.
-/

namespace PriceTracker

/-- A search page with the text in its search bar. -/
structure SearchPage where
  vc : PeopleSearchVC := {}
  searchText : String := ""
  /-- The read that `viewDidLoad` has requested is not delivered yet. -/
  requested : Bool := true
  deriving DecidableEq

namespace SearchPage

inductive Event where
  | textDidChange (searchText : String)
  | getUserEmails (snapshot : Collection)

variable (lowercased : String → String) (contains : String → String → Bool)

def step (page : SearchPage) : Event → Option SearchPage
  | .textDidChange searchText =>
      some { page with vc := page.vc.textDidChange lowercased contains searchText, searchText }
  | .getUserEmails snapshot =>
      if page.requested then
        (page.vc.getUserEmails snapshot).map fun vc => { page with vc, requested := false }
      else none

/-- The list on the screen is the one for the text in the search bar. -/
def MatchesText (page : SearchPage) : Prop :=
  page.vc.currentResults =
    PeopleSearchVC.searched lowercased contains page.vc.results page.searchText

instance : DecidablePred (MatchesText lowercased contains) := fun page =>
  inferInstanceAs (Decidable (page.vc.currentResults =
    PeopleSearchVC.searched lowercased contains page.vc.results page.searchText))

/-- The emails that arrive are all kept by the text in the search bar. -/
def LoadsInFull (page : SearchPage) : Event → Prop
  | .textDidChange _ => True
  | .getUserEmails snapshot => page.searchText.isEmpty ∨
      ∀ entry ∈ snapshot.entries, ∀ email ∈ stringAt entry.2 firEmailNode,
        contains (lowercased email) (lowercased page.searchText)

variable {lowercased contains}

theorem searched_eq_self_iff {results : List String} {searchText : String} :
    PeopleSearchVC.searched lowercased contains results searchText = results ↔
      searchText.isEmpty ∨
        ∀ email ∈ results, contains (lowercased email) (lowercased searchText) := by
  unfold PeopleSearchVC.searched
  split_ifs with empty
  · simp [empty]
  · simp [empty, List.filter_eq_self]

theorem matchesText_step_iff {page next : SearchPage} {event : Event}
    (isMatching : page.MatchesText lowercased contains)
    (stepped : page.step lowercased contains event = some next) :
    next.MatchesText lowercased contains ↔ page.LoadsInFull lowercased contains event := by
  cases event with
  | textDidChange searchText =>
      simp only [step, Option.some.injEq] at stepped
      subst stepped
      exact iff_of_true rfl trivial
  | getUserEmails snapshot =>
      simp only [step, Option.ite_none_right_eq_some, Option.map_eq_some_iff] at stepped
      rcases stepped with ⟨_, vc, read, rfl⟩
      by_cases present : snapshotExists snapshot = true
      · have loaded : vc.currentResults = vc.results := by
          rcases (PeopleSearchVC.getUserEmails_eq_some_iff present).mp read with ⟨userEmails, _, rfl⟩
          rfl
        rw [MatchesText, loaded, eq_comm, searched_eq_self_iff, LoadsInFull]
        refine or_congr_right ?_
        simp only [PeopleSearchVC.mem_results_iff present read]
        constructor
        · intro kept entry entry_mem email isEmail
          exact kept email ⟨entry, entry_mem, isEmail⟩
        · rintro kept email ⟨entry, entry_mem, isEmail⟩
          exact kept entry entry_mem email isEmail
      · have empty : snapshot.entries = [] := by simpa [snapshotExists] using present
        have same : vc = page.vc := by
          simpa [PeopleSearchVC.getUserEmails, present] using read.symm
        rw [same]
        exact iff_of_true isMatching (Or.inr (by simp [empty]))

/-- In every run of edits with the emails arriving at any point, the list matches the text in all
states exactly when the text keeps all the emails at that point. -/
theorem matchesText_iff_loadsInFull {events : List Event} {page : SearchPage}
    (reached : Machine.run (step lowercased contains) {} events = some page) :
    Machine.Always (step lowercased contains) (MatchesText lowercased contains) {} events ↔
      Machine.EachStep (step lowercased contains) (fun _ => LoadsInFull lowercased contains) {}
        events := by
  have initial : MatchesText lowercased contains {} := rfl
  refine Machine.always_iff_eachStep initial ?_ reached
  intro events state event next _ isMatching stepped
  exact matchesText_step_iff isMatching stepped

/-- On ASCII texts these are the functions of Swift. -/
def asciiLowercased (text : String) : String := String.ofList (text.toList.map Char.toLower)

def asciiContains (text other : String) : Bool := other.toList <:+: text.toList

def twoEmails : Collection :=
  [⟨"ann", dictionary [(firUsernameNode, "Ann"), (firEmailNode, "ann@example.com")]⟩,
    ⟨"bob", dictionary [(firUsernameNode, "Bob"), (firEmailNode, "bob@example.com")]⟩].toAList

/-- The emails arrive first, then the user types. -/
def loadThenType : List Event := [.getUserEmails twoEmails, .textDidChange "B", .textDidChange "Bo"]

theorem matchesText_iff_loadsInFull_loadThenType :
    Machine.Always (step asciiLowercased asciiContains)
        (MatchesText asciiLowercased asciiContains) {} loadThenType ↔
      Machine.EachStep (step asciiLowercased asciiContains)
        (fun _ => LoadsInFull asciiLowercased asciiContains) {} loadThenType :=
  matchesText_iff_loadsInFull
    (show Machine.run (step asciiLowercased asciiContains) {} loadThenType =
      some ((Machine.run (step asciiLowercased asciiContains) {} loadThenType).get (by decide)) from
      (Option.some_get _).symm)

/-- The user types `Bo` before the emails arrive: the page lists `ann` as well. -/
theorem not_matchesText_typeThenLoad :
    ¬ Machine.Always (step asciiLowercased asciiContains)
        (MatchesText asciiLowercased asciiContains) {}
        [.textDidChange "Bo", .getUserEmails twoEmails] := by
  intro always
  have isMatching := always [.textDidChange "Bo", .getUserEmails twoEmails] [] _ (by simp)
    (Option.some_get (by decide)).symm
  exact absurd isMatching (by decide +kernel)

end SearchPage

end PriceTracker
