/-!
# Statuses of a native call

A native function answers with one 64-bit number.  A number that is not negative
is a length; a negative one is a status.  Three statuses have a meaning of their
own, and every other negative number is kept as it is, so that no two different
numbers are reported alike.
-/

namespace Linkage

/-- What a negative answer of a native function means. -/
inductive CallStatus where
  | nullArgument
  | invalidEncoding
  | panicked
  | unknown (code : Int64)
  deriving DecidableEq, Repr

namespace CallStatus

/-- The answer for a null pointer. -/
def nullArgumentCode : Int64 := -1

/-- The answer for a text that is not UTF-8. -/
def invalidEncodingCode : Int64 := -2

/-- The answer of a measurement that broke down. -/
def panickedCode : Int64 := -3

/-- Classifies an answer; lengths have no status. -/
def ofAnswer? (answer : Int64) : Option CallStatus :=
  if 0 ≤ answer then none
  else if answer = nullArgumentCode then some .nullArgument
  else if answer = invalidEncodingCode then some .invalidEncoding
  else if answer = panickedCode then some .panicked
  else some (.unknown answer)

/-- The words for a status. -/
def message : CallStatus → String
  | .nullArgument => "null argument (status -1)"
  | .invalidEncoding => "argument is not valid UTF-8 (status -2)"
  | .panicked => "native function panicked (status -3)"
  | .unknown code => "unknown status " ++ toString code.toInt

end CallStatus
end Linkage
