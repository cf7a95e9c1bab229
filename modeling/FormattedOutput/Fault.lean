import FormattedOutput.Quoted

/-!
# Faults and errors

A fault is the cause for which a directive is rejected. An error is what a caller sees: the kind
of the fault, its reason as text, and the position of the directive.
-/

namespace FormattedOutput

/-- The two kinds of error. -/
inductive Error.Kind where
  /-- A malformed directive, or an argument that does not fit it. -/
  | invalidArgument
  /-- A well-formed directive that is left out on purpose. -/
  | unsupported
  deriving DecidableEq, Repr

namespace Error.Kind

/-- The negative status of the kind: `EINVAL` or `ENOTSUP`. -/
def status : Error.Kind → Int
  | .invalidArgument => -22
  | .unsupported => -95

/-- The name of the kind. -/
def name : Error.Kind → String
  | .invalidArgument => "InvalidArgument"
  | .unsupported => "Unsupported"

/-- The words that stand before the reason. -/
def words : Error.Kind → String
  | .invalidArgument => "invalid argument"
  | .unsupported => "unsupported conversion"

end Error.Kind

/-- An error: its kind, its reason, and the offset of the `%` of the rejected directive. -/
structure Error where
  kind : Error.Kind
  reason : String
  position : Nat
  deriving DecidableEq, Repr

namespace Error

/-- An error that belongs to no directive stands at the start of the text. -/
def ofKind (kind : Error.Kind) (reason : String) : Error :=
  ⟨kind, reason, 0⟩

/-- The status that a caller of the family gets in place of a count. -/
def status (e : Error) : Int :=
  e.kind.status

/-- The kind and the reason as one text. -/
def kindMessage (e : Error) : String :=
  e.kind.words ++ ": " ++ e.reason

/-- The whole message. -/
def message (e : Error) : String :=
  e.kindMessage ++ " (directive at byte " ++ toString e.position ++ ")"

/-- The error with its fields spelled out, for a diagnosis. -/
def debugText (e : Error) : String :=
  "Error \x7b kind: " ++ e.kind.name ++ "(" ++ Quoted.text e.reason ++ "), position: "
    ++ toString e.position ++ " \x7d"

end Error

/-- The causes for which a directive is rejected. -/
inductive Fault where
  | incompleteDirective
  | unknownConversion
  | repeatedZeroFlag
  | widthTwice
  | widthOverflow
  | repeatedPrecision
  | precisionTwice
  | precisionOverflow
  | thirdStar
  | conflictingLengths
  | bitWidthTooLarge
  | noSuchWidth
  | noSuchFastWidth
  | tooFewArguments
  | integerExpected
  | doubleExpected
  | longDoubleExpected
  | stringExpected
  | positionalArguments
  | wideCharacters
  | countStore
  | systemMessage
  deriving DecidableEq, Repr

namespace Fault

/-- The kind of error that a fault gives. -/
def kind : Fault → Error.Kind
  | .positionalArguments | .wideCharacters | .countStore | .systemMessage => .unsupported
  | _ => .invalidArgument

/-- The reason that a fault gives. -/
def reason : Fault → String
  | .incompleteDirective => "incomplete directive"
  | .unknownConversion => "unknown conversion character"
  | .repeatedZeroFlag => "repeated zero flag"
  | .widthTwice => "width given both inline and by argument"
  | .widthOverflow => "width overflows int"
  | .repeatedPrecision => "repeated precision"
  | .precisionTwice => "precision given both inline and by argument"
  | .precisionOverflow => "precision overflows int"
  | .thirdStar => "third `*`"
  | .conflictingLengths => "conflicting length modifiers"
  | .bitWidthTooLarge => "bit width larger than 64"
  | .noSuchWidth => "unsupported integer width"
  | .noSuchFastWidth => "unsupported fast integer width"
  | .tooFewArguments => "too few arguments"
  | .integerExpected => "expected an integer argument"
  | .doubleExpected => "expected a double argument"
  | .longDoubleExpected => "expected a long double argument"
  | .stringExpected => "expected a string argument"
  | .positionalArguments => "positional arguments"
  | .wideCharacters => "wide characters"
  | .countStore => "%n"
  | .systemMessage => "%m"

/-- The error of a fault in the directive at `position`. -/
def error (fault : Fault) (position : Nat) : Error :=
  ⟨fault.kind, fault.reason, position⟩

end Fault

end FormattedOutput
