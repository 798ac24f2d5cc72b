import ExtensionAudit.Text.Quoted
import ExtensionAudit.Value.Moment

/-!
What can be wrong with a settings document in YAML. Most documents that are refused are simply
malformed. A few scalars have the form of a value and yet denote none; those faults keep their
cause.
-/

namespace ExtensionAudit.Yaml

/-- Why a scalar denotes no value. -/
inductive ScalarFault where
  | notTruthValue (text : String)
  | emptyNumber
  | notInteger (base : Nat) (text : String)
  | notNumber (text : String)
  | tooManyDigits (count : Nat)
  | noMoment
  /-- A collection that stands for a scalar may do so for any value but a date. -/
  | momentOfCollection
  | moment (fault : MomentFault)
  | noCodePoint
  deriving DecidableEq, Repr

/-- The greatest length of the quotation of a refused numeral. -/
def maxQuotation : Nat := 200

def ScalarFault.message : ScalarFault → String
  | .notTruthValue text => Text.quoted text
  | .emptyNumber => "string index out of range"
  | .notInteger base text =>
    "invalid literal for int() with base " ++ toString base ++ ": " ++
      String.ofList ((Text.quoted text).toList.take maxQuotation)
  | .notNumber text => "could not convert string to float: " ++ Text.quoted text
  | .tooManyDigits count =>
    "Exceeds the limit (4300 digits) for integer string conversion: value has " ++
      toString count ++ " digits; use sys.set_int_max_str_digits() to increase the limit"
  | .noMoment => "'NoneType' object has no attribute 'groupdict'"
  | .momentOfCollection => "expected string or bytes-like object, got 'list'"
  | .moment fault => fault.message
  | .noCodePoint => "chr() arg not in range(0x110000)"

/-- What is wrong with a document. -/
inductive Fault where
  | malformed
  | scalar (fault : ScalarFault)
  deriving DecidableEq, Repr

end ExtensionAudit.Yaml
