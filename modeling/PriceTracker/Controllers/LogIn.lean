import Mathlib.Logic.Function.Basic

/-!
# Logging in

`LogInVC` sends the texts of its two fields to Firebase Auth and goes on to the tabs when
`signIn` succeeds. It keeps committed copies of the texts as well, which it never reads.

`LogInVC.step` is the page as a machine. Nothing disables Log In while a request is
outstanding, so several may be.
-/

namespace PriceTracker

inductive LogInField where
  | email
  | password
  deriving DecidableEq, Repr

structure LogInVC where
  /-- The text of the two fields. -/
  text : LogInField → String := fun _ => ""
  focused : Option LogInField := none
  userEmail : String := ""
  userPassword : String := ""

/-- A call of `signIn`. -/
structure SignIn where
  email : String
  password : String
  deriving DecidableEq, Repr

inductive LogInOutcome where
  | alert (title message : String)
  | signIn (request : SignIn)
  deriving DecidableEq, Repr

namespace LogInVC

def logInPressed (vc : LogInVC) : LogInOutcome :=
  let emailText := vc.text .email
  let passwordText := vc.text .password
  if emailText = "" ∨ passwordText = "" then
    .alert "Log In Error" "Please enter an email and password."
  else .signIn { email := emailText, password := passwordText }

def textFieldDidEndEditing (vc : LogInVC) : LogInField → LogInVC
  | .email => { vc with userEmail := vc.text .email }
  | .password => { vc with userPassword := vc.text .password }

/-- Moving the focus ends editing of the field that had it. -/
def moveFocus (vc : LogInVC) (target : Option LogInField) : LogInVC :=
  match vc.focused with
  | some field =>
      if target = some field then vc
      else { vc.textFieldDidEndEditing field with focused := target }
  | none => { vc with focused := target }

/-- A keystroke changes the text of the focused field. -/
def edit (vc : LogInVC) (field : LogInField) (newText : String) : LogInVC :=
  { vc with text := Function.update vc.text field newText }

structure State where
  vc : LogInVC := {}
  outstanding : List SignIn := []

inductive Event where
  | focus (target : Option LogInField)
  | keystroke (newText : String)
  | press
  | succeed (request : SignIn)
  | fail (request : SignIn)

/-- The events that the user causes. -/
def Event.isTouch : Event → Bool
  | .focus _ | .keystroke _ | .press => true
  | .succeed _ | .fail _ => false

def step (state : State) : Event → Option State
  | .focus target => some { state with vc := state.vc.moveFocus target }
  | .keystroke newText => state.vc.focused.map fun field =>
      { state with vc := state.vc.edit field newText }
  | .press =>
      match state.vc.logInPressed with
      | .alert _ _ => some state
      | .signIn request => some { state with outstanding := state.outstanding ++ [request] }
  | .succeed request | .fail request =>
      if request ∈ state.outstanding then
        some { state with outstanding := state.outstanding.erase request }
      else none

end LogInVC

end PriceTracker
