import ChatFlow.Text.Blank
import ChatFlow.Text.Lowercase

/-!
# Profiles of business actions

A profile says which variables an action of its kind needs, which variable counts its successes,
how many there may be, where the user's reason is kept, and what is said when the action does not
take place.
-/

namespace ChatFlow

/-- The rules for one kind of business action. -/
structure ActionProfile where
  name : String
  requiredFields : List String := []
  counterVariable : String := ""
  defaultMaxAttempts : Option Int := none
  reasonVariable : String := ""
  resultFlag : String := ""
  needReasonMessage : String := "Could you tell us the reason for this change?"
  missingFieldsMessage : String :=
    "I don't have the information needed to complete this request."
  limitMessage : String := "You have reached the maximum number of attempts for this request."
  deriving DecidableEq, Repr, Inhabited

namespace ActionProfile

/-- The kinds of actions with rules of their own. -/
def known : List ActionProfile :=
  [{ name := "reschedule-appointment"
     requiredFields := ["appointmentId"]
     counterVariable := "rescheduleCount"
     defaultMaxAttempts := some 3
     reasonVariable := "rescheduleReason"
     resultFlag := "appointmentRescheduled"
     needReasonMessage := "Could you tell us why you need to reschedule your appointment?"
     missingFieldsMessage :=
       "I don't have the details of the appointment you want to reschedule. " ++
         "Please share the appointment reference."
     limitMessage :=
       "This appointment has already been rescheduled the maximum number of times. " ++
         "Please contact us directly." },
    { name := "cancel-appointment"
      requiredFields := ["appointmentId"]
      reasonVariable := "cancellationReason"
      resultFlag := "appointmentCancelled"
      needReasonMessage :=
        "Could you tell us why you want to cancel the appointment? " ++
          "It helps us improve our service."
      missingFieldsMessage :=
        "I don't have the information of the appointment you want to cancel. " ++
          "Please share the appointment reference." },
    { name := "book-appointment", resultFlag := "appointmentBooked" },
    { name := "check-availability", resultFlag := "availabilityChecked" },
    { name := "lead-qualification", resultFlag := "leadQualified" }]

/-- The rules for every other kind: nothing is required, and successes are counted per node. -/
def generic : ActionProfile := { name := "generic" }

/-- The name of a kind of action as profiles spell it. -/
def normalize (action : String) : String :=
  (Text.lower (Text.trim action)).map fun c => if c = '_' then '-' else c

def ofName? (name : String) : Option ActionProfile :=
  known.find? (·.name == name)

/-- The profile of an action, however its name is spelled. -/
def ofAction (action : String) : ActionProfile :=
  (ofName? (normalize action)).getD generic

end ActionProfile

end ChatFlow
