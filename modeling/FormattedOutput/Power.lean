/-!
# Powers of natural numbers

A power of natural numbers can be that of the core library or that of a monoid. Which one is meant
would depend on the modules that are known where it is written. In this library it is that of the
core library everywhere.
-/

namespace FormattedOutput

attribute [scoped instance (high)] instPowNat

end FormattedOutput
