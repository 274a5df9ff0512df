/-
Why a configuration file gives no value.

A malformed file is one thing; a well-formed one may still hold a scalar that is not what its
tag or its look says. The first is met with a notice, the second ends the program, as does
whatever else a decoder fails for.
-/
import InferTrace.Calendar
import InferTrace.Number.Digits
import InferTrace.Text.Points

namespace InferTrace.Config

/-- What is wrong with a scalar. -/
inductive ScalarFault where
  /-- A whole number with too many digits to be read. -/
  | numberTooLong (digits : Nat)
  /-- A whole number with too many digits to be shown. -/
  | numberTooLongToShow
  /-- An escape names a code beyond the last code point. -/
  | noSuchCode (code : Nat)
  /-- No whole number in a base. -/
  | noWhole (base : Nat) (text : Text.Points)
  /-- No double. -/
  | noDouble (text : Text.Points)
  /-- No truth value. -/
  | noTruth (text : Text.Points)
  /-- No point in time. -/
  | noTimestamp
  /-- A point in time that is the default of a mapping. -/
  | timeInMapping
  /-- A double with more parts than the weight of a part has doubles. -/
  | tooManyParts
  /-- No digits where a number should be. -/
  | noDigits
  /-- A point in time out of range. -/
  | outOfCalendar (fault : Calendar.Fault)
deriving DecidableEq, Repr

/-- What is wrong with a scalar, in words. -/
def ScalarFault.message : ScalarFault → String
  | numberTooLong digits => "a number has " ++ toString digits ++ " digits"
  | numberTooLongToShow => "a number has too many digits to be shown"
  | noSuchCode code => "there is no code point " ++ toString code
  | noWhole base text => text.quoted ++ " is no whole number in base " ++ toString base
  | noDouble text => text.quoted ++ " is no number"
  | noTruth text => text.quoted ++ " is no truth value"
  | noTimestamp => "there is no point in time"
  | timeInMapping => "a point in time is given by a mapping"
  | tooManyParts => "a number has too many parts"
  | noDigits => "a number has no digits"
  | outOfCalendar fault => fault.message

/-- Why a text was not read as a value. A decoder may fail for reasons of its own. -/
inductive ReadFault where
  | malformed
  | tooDeep
  | scalar (fault : ScalarFault)
  | other (reason : String)
deriving DecidableEq, Repr

end InferTrace.Config
