/-
  Powers of whole numbers.

  Bounds of words and decimal places are powers, in definitions that run and in statements about
  them.  Both are to mean the power of the core library, also where a module sees a general theory
  of powers beside it: otherwise a bound in a definition and the same bound in a theorem could be
  two different terms.  So the core instance goes before all others.
-/

-- for an exponent that is known to be a natural number
attribute [instance (2000)] instPowNat
-- for an exponent that is a numeral
attribute [default_instance 20000] instPowNat
